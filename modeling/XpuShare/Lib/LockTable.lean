import Mathlib.Tactic

/-! # Lock tables

A lock with admission control keeps three lists of holders and seekers: requests in order
of arrival, requests set aside until they can be admitted, and admitted holders. The table
says who stands where; the moves between the lists are its only operations. -/

structure LockTable (α : Type*) where
  requests : List α
  waiting : List α
  running : List α

namespace LockTable

open List

variable {α : Type*}

def entries (t : LockTable α) : List α := t.requests ++ t.waiting ++ t.running

/-- A new request at the end of the queue. -/
def arrive (t : LockTable α) (a : α) : LockTable α :=
  { t with requests := t.requests ++ [a] }

/-- Taking a request that stands between `front` and `back` among those set aside to the
head of the queue. -/
def promote (t : LockTable α) (front : List α) (a : α) (back : List α) : LockTable α :=
  { t with requests := a :: t.requests, waiting := front ++ back }

section Moves

variable [DecidableEq α] (t : LockTable α) (a : α)

/-- Setting a request aside. -/
def defer : LockTable α :=
  { t with requests := t.requests.erase a, waiting := t.waiting ++ [a] }

/-- Admitting a request. -/
def enter : LockTable α :=
  { t with requests := t.requests.erase a, running := t.running ++ [a] }

/-- A holder gives the lock back. -/
def release : LockTable α := { t with running := t.running.erase a }

/-- Forgetting every request of a client that has not been admitted. -/
def withdraw : LockTable α :=
  { t with requests := t.requests.filter (· ≠ a), waiting := t.waiting.filter (· ≠ a) }

end Moves

variable {t : LockTable α} {a b : α}

theorem mem_entries : b ∈ t.entries ↔ b ∈ t.requests ∨ b ∈ t.waiting ∨ b ∈ t.running := by
  simp [entries]

/-! ## The moves permute the entries -/

theorem arrive_entries_perm : (t.arrive a).entries ~ a :: t.entries := by
  simp only [arrive, entries, List.append_assoc, List.singleton_append]
  exact List.perm_middle

theorem promote_entries_perm {front back : List α} (h : t.waiting = front ++ a :: back) :
    (t.promote front a back).entries ~ t.entries := by
  simp only [promote, entries, h]
  apply List.Perm.append_right
  rw [List.cons_append, ← List.append_assoc, ← List.append_assoc]
  exact List.perm_middle.symm

theorem defer_entries_perm [DecidableEq α] (h : a ∈ t.requests) :
    (t.defer a).entries ~ t.entries := by
  have hcons := List.perm_cons_erase h
  calc (t.defer a).entries
      = t.requests.erase a ++ (t.waiting ++ a :: t.running) := by simp [defer, entries]
    _ ~ a :: (t.requests.erase a ++ (t.waiting ++ t.running)) := by
        rw [← List.append_assoc, ← List.append_assoc]
        exact List.perm_middle
    _ ~ t.requests ++ (t.waiting ++ t.running) := hcons.symm.append_right _
    _ = t.entries := by simp [entries]

theorem enter_entries_perm [DecidableEq α] (h : a ∈ t.requests) :
    (t.enter a).entries ~ t.entries := by
  have hcons := List.perm_cons_erase h
  calc (t.enter a).entries
      = t.requests.erase a ++ t.waiting ++ t.running ++ a :: [] := by simp [enter, entries]
    _ ~ a :: (t.requests.erase a ++ t.waiting ++ t.running ++ []) := List.perm_middle
    _ = a :: t.requests.erase a ++ (t.waiting ++ t.running) := by simp
    _ ~ t.requests ++ (t.waiting ++ t.running) := hcons.symm.append_right _
    _ = t.entries := by simp [entries]

theorem release_entries_sublist [DecidableEq α] : (t.release a).entries <+ t.entries :=
  (List.erase_sublist).append_left _

theorem withdraw_entries_sublist [DecidableEq α] : (t.withdraw a).entries <+ t.entries :=
  (List.filter_sublist.append List.filter_sublist).append (List.Sublist.refl _)

/-! ## Where a client stands, when nobody stands twice -/

theorem notMem_of_mem_requests (hnd : t.entries.Nodup) (h : a ∈ t.requests) :
    a ∉ t.waiting ∧ a ∉ t.running := by
  simp only [entries, List.nodup_append] at hnd
  refine ⟨fun hw => hnd.1.2.2 a h a hw rfl, fun hr => ?_⟩
  exact hnd.2.2 a (List.mem_append_left _ h) a hr rfl

end LockTable

/-! ## Weights -/

section Weights

variable {α : Type*} {l m : List α} {a : α}

/-- Distinct elements of a list weigh no more than the list. -/
theorem List.sum_map_le_of_nodup_subset (hnd : l.Nodup) (hsub : l ⊆ m) (f : α → ℕ) :
    (l.map f).sum ≤ (m.map f).sum := by
  obtain ⟨l', hperm, hsublist⟩ := List.subperm_of_subset hnd hsub
  rw [← (hperm.map f).sum_eq]
  exact (hsublist.map f).sum_le_sum fun _ _ => Nat.zero_le _

variable [DecidableEq α]

/-- A change of one weight changes the weight of a list without repetitions by as much. -/
theorem List.sum_map_update (hnd : l.Nodup) (ha : a ∈ l) (f : α → ℕ) (v : ℕ) :
    (l.map (Function.update f a v)).sum + f a = (l.map f).sum + v := by
  have hnot : a ∉ l.erase a := hnd.not_mem_erase
  have hrest : (l.erase a).map (Function.update f a v) = (l.erase a).map f := by
    refine List.map_congr_left fun b hb => Function.update_of_ne ?_ v f
    rintro rfl
    exact hnot hb
  rw [← List.sum_map_erase _ ha, ← List.sum_map_erase f ha, hrest, Function.update_self]
  omega

theorem List.sum_map_update_of_notMem (ha : a ∉ l) (f : α → ℕ) (v : ℕ) :
    (l.map (Function.update f a v)).sum = (l.map f).sum := by
  refine congrArg List.sum (List.map_congr_left fun b hb => Function.update_of_ne ?_ v f)
  rintro rfl
  exact ha hb

end Weights
