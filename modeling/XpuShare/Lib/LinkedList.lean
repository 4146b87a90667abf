import Mathlib.Tactic

/-! # Singly linked lists

Lists whose elements are cells of a memory, each with a pointer to the next. A list is named by
a pointer to its first cell. The operations are loops over these pointers. Reading a cell that
is not allocated ends the program, and a loop takes at most as many passes as its fuel: `none`
stands for both. -/

namespace LinkedList

structure Cell (α : Type*) where
  next : Option ℕ
  item : α

/-- What stands at each address, `none` where nothing is allocated. -/
abbrev Memory (α : Type*) := ℕ → Option (Cell α)

section Operations

variable {α : Type*}

/-! ## Memory -/

/-- `a->next = next`. -/
def write (a : ℕ) (next : Option ℕ) (m : Memory α) : Option (Memory α) :=
  (m a).map fun cell => Function.update m a (some { cell with next })

/-- A new cell at an address that is not in use. -/
def malloc (a : ℕ) (item : α) (m : Memory α) : Option (Memory α) :=
  if (m a).isNone then some (Function.update m a (some ⟨none, item⟩)) else none

def free (a : ℕ) (m : Memory α) : Option (Memory α) :=
  (m a).map fun _ => Function.update m a none

/-! ## Lists -/

/-- `while (tmp->next) tmp = tmp->next`. -/
def lastOf : ℕ → ℕ → Memory α → Option ℕ
  | 0, _, _ => none
  | fuel + 1, tmp, m => (m tmp).bind fun cell =>
      match cell.next with
      | none => some tmp
      | some a => lastOf fuel a m

/-- `while (tmp->next && tmp->next != del) tmp = tmp->next`. -/
def previousOf : ℕ → ℕ → ℕ → Memory α → Option ℕ
  | 0, _, _, _ => none
  | fuel + 1, del, tmp, m => (m tmp).bind fun cell =>
      match cell.next with
      | none => some tmp
      | some a => if a = del then some tmp else previousOf fuel del a m

/-- Putting a cell in front of a list. -/
def prepend (add : ℕ) (head : Option ℕ) (m : Memory α) : Option (Option ℕ × Memory α) :=
  (write add head m).map fun m => (some add, m)

/-- Putting a cell behind a list. -/
def append (fuel : ℕ) (add : ℕ) (head : Option ℕ) (m : Memory α) :
    Option (Option ℕ × Memory α) :=
  (write add none m).bind fun m =>
    match head with
    | none => some (some add, m)
    | some a => (lastOf fuel a m).bind fun tmp =>
        (write tmp (some add) m).map fun m => (some a, m)

/-- Taking a cell out of a list. -/
def delete (fuel : ℕ) (del : ℕ) (head : Option ℕ) (m : Memory α) :
    Option (Option ℕ × Memory α) :=
  if head = some del then (m del).map fun cell => (cell.next, m)
  else head.bind fun a => (previousOf fuel del a m).bind fun tmp => (m tmp).bind fun before =>
    match before.next with
    | none => some (some a, m)
    | some _ => (m del).bind fun cell =>
        (write tmp cell.next m).map fun m => (some a, m)

/-- A loop over a list that ends at the first cell whose item passes a test. -/
def search (p : α → Bool) : ℕ → Option ℕ → Memory α → Option (Option ℕ)
  | 0, _, _ => none
  | _ + 1, none, _ => some none
  | fuel + 1, some a, m => (m a).bind fun cell =>
      if p cell.item then some (some a) else search p fuel cell.next m

/-- A loop over a list, from `el` on, that takes out and frees every cell whose item passes a
test. It reads the pointer to the next cell first. -/
def deleteFrom (p : α → Bool) (inner : ℕ) :
    ℕ → Option ℕ → Option ℕ → Memory α → Option (Option ℕ × Memory α)
  | 0, _, _, _ => none
  | _ + 1, none, head, m => some (head, m)
  | fuel + 1, some a, head, m => (m a).bind fun cell =>
      if p cell.item then
        (delete inner a head m).bind fun r => (free a r.2).bind fun m =>
          deleteFrom p inner fuel cell.next r.1 m
      else deleteFrom p inner fuel cell.next head m

def deleteAll (p : α → Bool) (fuel : ℕ) (head : Option ℕ) (m : Memory α) :
    Option (Option ℕ × Memory α) :=
  deleteFrom p fuel fuel head head m

end Operations

/-! ## Cells in a row -/

section Segments

variable {α : Type*}

/-- The addresses of some cells. -/
def addresses (l : List (ℕ × α)) : List ℕ := l.map Prod.fst

/-- The cells `l`, with their items, lead from the pointer `p` to the pointer `q`. -/
inductive Segment (m : Memory α) : Option ℕ → List (ℕ × α) → Option ℕ → Prop where
  | nil (p) : Segment m p [] p
  | cons {a i next l q} (hcell : m a = some ⟨next, i⟩) (hrest : Segment m next l q) :
      Segment m (some a) ((a, i) :: l) q

variable {m m' : Memory α} {p q r : Option ℕ} {a b : ℕ} {i : α} {l l' front back : List (ℕ × α)}

theorem Segment.congr (h : Segment m p l q) (hm : ∀ a ∈ addresses l, m' a = m a) :
    Segment m' p l q := by
  induction h with
  | nil => exact .nil _
  | cons hcell hrest ih =>
      rw [← hm _ List.mem_cons_self] at hcell
      exact .cons hcell (ih fun a ha => hm a (List.mem_cons_of_mem _ ha))

/-- A cell outside a segment may change. -/
theorem Segment.update (h : Segment m p l q) (ha : a ∉ addresses l) (cell : Option (Cell α)) :
    Segment (Function.update m a cell) p l q :=
  h.congr fun _ hb => Function.update_of_ne (ne_of_mem_of_not_mem hb ha) _ _

theorem Segment.append (h : Segment m p l q) (h' : Segment m q l' r) :
    Segment m p (l ++ l') r := by
  induction h with
  | nil => exact h'
  | cons hcell _ ih => exact .cons hcell (ih h')

theorem Segment.split (h : Segment m p (l ++ l') r) :
    ∃ q, Segment m p l q ∧ Segment m q l' r := by
  induction l generalizing p with
  | nil => exact ⟨p, .nil p, h⟩
  | cons e l ih =>
      cases h with
      | cons hcell hrest =>
          obtain ⟨q, hq, hqr⟩ := ih hrest
          exact ⟨q, .cons hcell hq, hqr⟩

theorem Segment.cell (h : Segment m p (front ++ (a, i) :: back) q) :
    ∃ next, m a = some ⟨next, i⟩ ∧ Segment m p front (some a) ∧ Segment m next back q := by
  obtain ⟨r, hfront, hrest⟩ := h.split
  cases hrest with
  | cons hcell hback => exact ⟨_, hcell, hfront, hback⟩

/-- The list as it is seen from one of its cells. -/
theorem Segment.allocated (h : Segment m p l q) (ha : a ∈ addresses l) : m a ≠ none := by
  induction h with
  | nil => cases ha
  | cons hcell _ ih =>
      rcases List.mem_cons.mp ha with rfl | ha
      · rw [hcell]
        exact Option.some_ne_none _
      · exact ih ha

/-- A pointer names one list only. -/
theorem Segment.functional (h : Segment m p l none) (h' : Segment m p l' none) : l = l' := by
  generalize hq : (none : Option ℕ) = q at h
  induction h generalizing l' with
  | nil =>
      subst hq
      cases h'
      rfl
  | cons hcell _ ih =>
      cases h' with
      | cons hcell' hrest' =>
          rw [hcell] at hcell'
          cases hcell'
          rw [ih hrest' hq]

/-- A list that ends visits no cell twice. -/
theorem Segment.nodup (h : Segment m p l none) : (addresses l).Nodup := by
  generalize hq : (none : Option ℕ) = q at h
  induction h with
  | nil => exact List.nodup_nil
  | @cons a i next l q hcell hrest ih =>
      subst hq
      refine List.nodup_cons.mpr ⟨?_, ih rfl⟩
      intro hmem
      obtain ⟨⟨a', j⟩, he, rfl⟩ := List.mem_map.mp hmem
      obtain ⟨front, back, hl⟩ := List.append_of_mem he
      -- The list behind the second visit would be as long as the whole list.
      rw [hl] at hrest
      obtain ⟨r, -, htail⟩ := hrest.split
      have hhead : r = some a' := by
        cases htail
        rfl
      subst hhead
      have hwhole : Segment m (some a') ((a', i) :: l) none := .cons hcell (hl ▸ hrest)
      have hlength := congrArg List.length (htail.functional hwhole)
      rw [hl] at hlength
      simp only [List.length_cons, List.length_append] at hlength
      omega

theorem notMem_of_nodup (h : (addresses (front ++ (a, i) :: back)).Nodup) :
    a ∉ addresses front ∧ a ∉ addresses back := by
  simp only [addresses, List.map_append, List.map_cons, List.nodup_append, List.nodup_cons] at h
  exact ⟨fun ha => h.2.2 a ha a List.mem_cons_self rfl, h.2.1.1⟩

theorem addresses_append : addresses (l ++ l') = addresses l ++ addresses l' := List.map_append

/-! ## What the operations do to a list -/

variable {fuel : ℕ} {cell : Cell α}

theorem write_eq (h : m a = some cell) (next : Option ℕ) :
    write a next m = some (Function.update m a (some ⟨next, cell.item⟩)) := by
  rw [write, h, Option.map_some]

theorem free_eq (h : m a = some cell) : free a m = some (Function.update m a none) := by
  rw [free, h, Option.map_some]

theorem lastOf_spec (h : Segment m (some a) (front ++ [(b, i)]) none)
    (hfuel : front.length < fuel) : lastOf fuel a m = some b := by
  induction front generalizing a fuel with
  | nil =>
      obtain ⟨fuel, rfl⟩ := Nat.exists_eq_add_of_lt hfuel
      rw [List.nil_append] at h
      cases h with
      | cons hcell hrest =>
          cases hrest
          simp [lastOf, hcell]
  | cons e front ih =>
      obtain ⟨fuel, rfl⟩ := Nat.exists_eq_add_one_of_ne_zero (Nat.ne_zero_of_lt hfuel)
      cases h with
      | @cons a j next _ _ hcell hrest =>
          have hlt : front.length < fuel := Nat.lt_of_succ_lt_succ hfuel
          cases next with
          | none => cases front <;> cases hrest
          | some x => simp [lastOf, hcell, ih hrest hlt]

theorem previousOf_spec {t : ℕ} {j : α}
    (h : Segment m (some t) (front ++ (b, j) :: (a, i) :: back) none)
    (hfuel : front.length < fuel) : previousOf fuel a t m = some b := by
  have hnodup := h.nodup
  induction front generalizing t fuel with
  | nil =>
      obtain ⟨fuel, rfl⟩ := Nat.exists_eq_add_one_of_ne_zero (Nat.ne_zero_of_lt hfuel)
      cases h with
      | cons hcell hrest =>
          cases hrest with
          | cons => simp [previousOf, hcell]
  | cons e front ih =>
      obtain ⟨fuel, rfl⟩ := Nat.exists_eq_add_one_of_ne_zero (Nat.ne_zero_of_lt hfuel)
      have hlt : front.length < fuel := Nat.lt_of_succ_lt_succ hfuel
      cases h with
      | @cons _ _ next _ _ hcell hrest =>
          have hrest : Segment m next (front ++ (b, j) :: (a, i) :: back) none := hrest
          have hrest' : (addresses (front ++ (b, j) :: (a, i) :: back)).Nodup :=
            (List.nodup_cons.mp hnodup).2
          cases next with
          | none => cases front <;> cases hrest
          | some x =>
              -- The next cell is not the one looked for, which comes after `b`.
              have hne : x ≠ a := by
                rintro rfl
                have hsplit : front ++ (b, j) :: (x, i) :: back =
                    (front ++ [(b, j)]) ++ (x, i) :: back := by simp
                rw [hsplit] at hrest hrest'
                obtain ⟨hnot, -⟩ := notMem_of_nodup hrest'
                apply hnot
                cases front with
                | nil => cases hrest; exact List.mem_cons_self
                | cons e front => cases hrest; exact List.mem_cons_self
              simp [previousOf, hcell, hne, ih hrest hlt hrest']

/-- The list with a cell in front of it. -/
theorem prepend_spec (h : Segment m p l none) (hcell : m a = some cell)
    (ha : a ∉ addresses l) :
    ∃ m', prepend a p m = some (some a, m') ∧
      Segment m' (some a) ((a, cell.item) :: l) none ∧ ∀ b, b ≠ a → m' b = m b := by
  refine ⟨_, by rw [prepend, write_eq hcell, Option.map_some], ?_, ?_⟩
  · exact .cons (Function.update_self _ _ _) (h.update ha _)
  · intro b hb
    exact Function.update_of_ne hb _ _

/-- The list with a cell behind it. -/
theorem append_spec (h : Segment m p l none) (hcell : m a = some cell) (ha : a ∉ addresses l)
    (hfuel : l.length < fuel) :
    ∃ p' m', append fuel a p m = some (p', m') ∧
      Segment m' p' (l ++ [(a, cell.item)]) none ∧
      ∀ b, b ≠ a → b ∉ addresses l → m' b = m b := by
  have hself : Function.update m a (some ⟨none, cell.item⟩) a = some ⟨none, cell.item⟩ :=
    Function.update_self _ _ _
  have hlist := h.update ha (some ⟨none, cell.item⟩)
  have hkeep : ∀ b, b ≠ a → Function.update m a (some ⟨none, cell.item⟩) b = m b :=
    fun b hb => Function.update_of_ne hb _ _
  generalize hm : Function.update m a (some (⟨none, cell.item⟩ : Cell α)) = m₁ at *
  rcases List.eq_nil_or_concat' l with rfl | ⟨front, ⟨b, j⟩, rfl⟩
  · cases h
    refine ⟨some a, m₁, ?_, .cons hself (.nil none), fun b hb _ => hkeep b hb⟩
    rw [append, write_eq hcell, hm, Option.bind_some]
  · obtain ⟨next, hb, hfront, hback⟩ := hlist.cell
    cases hback
    rw [addresses_append, List.mem_append, not_or] at ha
    have hba : a ≠ b := fun he => ha.2 (he ▸ List.mem_cons_self)
    obtain ⟨hbfront, -⟩ := notMem_of_nodup hlist.nodup
    have hp : ∃ t, p = some t := by
      cases front with
      | nil => cases hlist; exact ⟨_, rfl⟩
      | cons e front => cases hlist; exact ⟨_, rfl⟩
    obtain ⟨t, rfl⟩ := hp
    have hlast : lastOf fuel t m₁ = some b := by
      apply lastOf_spec hlist
      rw [List.length_append] at hfuel
      exact Nat.lt_of_succ_lt hfuel
    refine ⟨some t, Function.update m₁ b (some ⟨some a, j⟩), ?_, ?_, ?_⟩
    · simp only [append, write_eq hcell, hm, Option.bind_some, hlast, write_eq hb, Option.map_some]
    · rw [List.append_assoc]
      apply (hfront.update hbfront _).append
      apply Segment.cons (Function.update_self _ _ _)
      apply Segment.cons _ (.nil none)
      rw [Function.update_of_ne hba]
      exact hself
    · intro d hda hd
      rw [addresses_append, List.mem_append, not_or] at hd
      have hdb : d ≠ b := fun he => hd.2 (he ▸ List.mem_cons_self)
      rw [Function.update_of_ne hdb, hkeep d hda]

/-- The list without one of its cells. -/
theorem delete_spec (h : Segment m p (front ++ (a, i) :: back) none)
    (hfuel : front.length < fuel) :
    ∃ p' m', delete fuel a p m = some (p', m') ∧ Segment m' p' (front ++ back) none ∧
      ∀ b, b ∉ addresses front → m' b = m b := by
  obtain ⟨next, hcell, hfront, hback⟩ := h.cell
  obtain ⟨hafront, -⟩ := notMem_of_nodup h.nodup
  rcases List.eq_nil_or_concat' front with rfl | ⟨before, ⟨b, j⟩, rfl⟩
  · cases hfront
    refine ⟨next, m, ?_, hback, fun _ _ => rfl⟩
    rw [delete, if_pos rfl, hcell, Option.map_some]
  · have hsplit : before ++ [(b, j)] ++ (a, i) :: back = before ++ (b, j) :: (a, i) :: back := by
      simp
    have hp : ∃ t, p = some t ∧ t ≠ a := by
      cases before with
      | nil =>
          cases hfront
          exact ⟨b, rfl, fun he => hafront (he ▸ List.mem_cons_self)⟩
      | cons e before =>
          cases hfront
          exact ⟨_, rfl, fun he => hafront (he ▸ List.mem_cons_self)⟩
    obtain ⟨t, rfl, hta⟩ := hp
    have hprevious : previousOf fuel a t m = some b := by
      rw [hsplit] at h
      apply previousOf_spec h
      rw [List.length_append] at hfuel
      exact Nat.lt_of_succ_lt hfuel
    obtain ⟨next', hb, hbefore, hone⟩ := hfront.cell
    cases hone
    rw [hsplit] at h
    have hnodup := h.nodup
    obtain ⟨hbbefore, hbback⟩ := notMem_of_nodup hnodup
    refine ⟨some t, Function.update m b (some ⟨next, j⟩), ?_, ?_, ?_⟩
    · have hne : ¬ some t = some a := fun he => hta (Option.some.inj he)
      simp only [delete, if_neg hne, Option.bind_some, hprevious, hb, hcell, write_eq hb,
        Option.map_some]
    · rw [List.append_assoc]
      apply (hbefore.update hbbefore _).append
      apply Segment.cons (Function.update_self _ _ _)
      apply hback.update
      exact fun hmem => hbback (List.mem_cons_of_mem _ hmem)
    · intro d hd
      rw [addresses_append, List.mem_append, not_or] at hd
      have hdb : d ≠ b := fun he => hd.2 (he ▸ List.mem_cons_self)
      exact Function.update_of_ne hdb _ _

theorem search_spec {test : α → Bool} (h : Segment m p l none) (hfuel : l.length < fuel) :
    search test fuel p m = some ((l.find? (test ·.2)).map Prod.fst) := by
  induction l generalizing p fuel with
  | nil =>
      obtain ⟨fuel, rfl⟩ := Nat.exists_eq_add_one_of_ne_zero (Nat.ne_zero_of_lt hfuel)
      cases h
      rfl
  | cons e l ih =>
      obtain ⟨fuel, rfl⟩ := Nat.exists_eq_add_one_of_ne_zero (Nat.ne_zero_of_lt hfuel)
      cases h with
      | @cons a i next _ _ hcell hrest =>
          rw [search, hcell, Option.bind_some, List.find?_cons]
          cases htest : test i with
          | true => simp
          | false => simp [ih hrest (Nat.lt_of_succ_lt_succ hfuel)]

/-- What the loop leaves when it has passed `kept` and `l` is still ahead of it. -/
theorem deleteFrom_spec {test : α → Bool} {inner : ℕ} {kept : List (ℕ × α)} {head : Option ℕ}
    (h : Segment m head (kept ++ l) none) (hel : Segment m p l none) (hfuel : l.length < fuel)
    (hinner : (kept ++ l).length ≤ inner) :
    ∃ p' m', deleteFrom test inner fuel p head m = some (p', m') ∧
      Segment m' p' (kept ++ l.filter (!test ·.2)) none ∧
      (∀ b, b ∉ addresses (kept ++ l) → m' b = m b) ∧
      ∀ e ∈ l, test e.2 = true → m' e.1 = none := by
  induction l generalizing p fuel kept head m with
  | nil =>
      obtain ⟨fuel, rfl⟩ := Nat.exists_eq_add_one_of_ne_zero (Nat.ne_zero_of_lt hfuel)
      cases hel
      exact ⟨head, m, rfl, h, fun _ _ => rfl, by simp⟩
  | cons e l ih =>
      obtain ⟨fuel, rfl⟩ := Nat.exists_eq_add_one_of_ne_zero (Nat.ne_zero_of_lt hfuel)
      have hlt : l.length < fuel := Nat.lt_of_succ_lt_succ hfuel
      cases hel with
      | @cons a i next _ _ hcell hrest =>
          obtain ⟨hkept, hl⟩ := notMem_of_nodup h.nodup
          rw [deleteFrom, hcell, Option.bind_some]
          cases htest : test i with
          | true =>
              have hlength : kept.length < inner := by
                rw [List.length_append, List.length_cons] at hinner
                omega
              obtain ⟨p₁, m₁, hdelete, hseg₁, hkeep₁⟩ := delete_spec h hlength
              have hcell₁ : m₁ a = some ⟨next, i⟩ := by rw [hkeep₁ a hkept, hcell]
              have hall : a ∉ addresses (kept ++ l) := by
                rw [addresses_append, List.mem_append, not_or]
                exact ⟨hkept, hl⟩
              have hrest₁ : Segment (Function.update m₁ a none) next l none := by
                apply Segment.update _ hl
                apply hrest.congr
                intro b hb
                apply hkeep₁
                intro hbkept
                have hnodup := h.nodup
                rw [addresses_append, List.nodup_append] at hnodup
                exact hnodup.2.2 b hbkept b (List.mem_cons_of_mem _ hb) rfl
              obtain ⟨p', m', hrun, hseg, hkeep, hfreed⟩ := ih (hseg₁.update hall none) hrest₁ hlt
                (by simp only [List.length_append, List.length_cons] at hinner ⊢; omega)
              refine ⟨p', m', ?_, ?_, ?_, ?_⟩
              · rw [if_pos rfl, hdelete, Option.bind_some, free_eq hcell₁, Option.bind_some, hrun]
              · rw [List.filter_cons_of_neg (by simp [htest])]
                exact hseg
              · intro b hb
                rw [addresses_append, List.mem_append, not_or] at hb
                have hba : b ≠ a := fun he => hb.2 (he ▸ List.mem_cons_self)
                have hbl : b ∉ addresses l := fun hmem => hb.2 (List.mem_cons_of_mem _ hmem)
                have hball : b ∉ addresses (kept ++ l) := by
                  rw [addresses_append, List.mem_append, not_or]
                  exact ⟨hb.1, hbl⟩
                rw [hkeep b hball, Function.update_of_ne hba, hkeep₁ b hb.1]
              · intro e he hte
                rcases List.mem_cons.mp he with rfl | he
                · rw [hkeep a hall, Function.update_self]
                · exact hfreed e he hte
          | false =>
              have hmove : kept ++ [(a, i)] ++ l = kept ++ (a, i) :: l := by simp
              obtain ⟨p', m', hrun, hseg, hkeep, hfreed⟩ :=
                ih (hmove ▸ h) hrest hlt (hmove ▸ hinner)
              refine ⟨p', m', ?_, ?_, ?_, ?_⟩
              · rw [if_neg (by simp), hrun]
              · rw [List.filter_cons_of_pos (by simp [htest])]
                simpa using hseg
              · rw [← hmove]
                exact hkeep
              · intro e he hte
                rcases List.mem_cons.mp he with rfl | he
                · rw [htest] at hte
                  cases hte
                · exact hfreed e he hte

/-- The list without the cells whose items pass the test, which are no longer allocated. -/
theorem deleteAll_spec {test : α → Bool} (h : Segment m p l none) (hfuel : l.length < fuel) :
    ∃ p' m', deleteAll test fuel p m = some (p', m') ∧
      Segment m' p' (l.filter (!test ·.2)) none ∧
      (∀ b, b ∉ addresses l → m' b = m b) ∧ ∀ e ∈ l, test e.2 = true → m' e.1 = none := by
  have hnil : Segment m p ([] ++ l) none := h
  exact deleteFrom_spec hnil h hfuel hfuel.le

end Segments

/-! ## Fuel

A loop that ends does so at the same point with more fuel. -/

section Fuel

variable {α : Type*} {m : Memory α} {head : Option ℕ} {r : Option ℕ × Memory α} {a b n k : ℕ}

theorem lastOf_mono (hle : n ≤ k) (h : lastOf n a m = some b) : lastOf k a m = some b := by
  induction n generalizing a k with
  | zero => cases h
  | succ n ih =>
      obtain ⟨k, rfl⟩ := Nat.exists_eq_add_one_of_ne_zero (Nat.ne_zero_of_lt hle)
      simp only [lastOf, Option.bind_eq_some_iff] at h ⊢
      obtain ⟨cell, hcell, hrest⟩ := h
      refine ⟨cell, hcell, ?_⟩
      cases hnext : cell.next with
      | none => simpa [hnext] using hrest
      | some x =>
          rw [hnext] at hrest
          exact ih (Nat.le_of_succ_le_succ hle) hrest

theorem previousOf_mono {del : ℕ} (hle : n ≤ k) (h : previousOf n del a m = some b) :
    previousOf k del a m = some b := by
  induction n generalizing a k with
  | zero => cases h
  | succ n ih =>
      obtain ⟨k, rfl⟩ := Nat.exists_eq_add_one_of_ne_zero (Nat.ne_zero_of_lt hle)
      simp only [previousOf, Option.bind_eq_some_iff] at h ⊢
      obtain ⟨cell, hcell, hrest⟩ := h
      refine ⟨cell, hcell, ?_⟩
      cases hnext : cell.next with
      | none => simpa [hnext] using hrest
      | some x =>
          rw [hnext] at hrest
          by_cases hx : x = del
          · simpa [hx] using hrest
          · simp only [if_neg hx] at hrest ⊢
            exact ih (Nat.le_of_succ_le_succ hle) hrest

theorem append_mono (hle : n ≤ k) (h : append n a head m = some r) :
    append k a head m = some r := by
  simp only [append, Option.bind_eq_some_iff] at h ⊢
  obtain ⟨m₁, hwrite, hrest⟩ := h
  refine ⟨m₁, hwrite, ?_⟩
  cases head with
  | none => exact hrest
  | some x =>
      simp only [Option.bind_eq_some_iff] at hrest ⊢
      obtain ⟨tmp, hlast, hlink⟩ := hrest
      exact ⟨tmp, lastOf_mono hle hlast, hlink⟩

theorem delete_mono (hle : n ≤ k) (h : delete n a head m = some r) :
    delete k a head m = some r := by
  unfold delete at h ⊢
  split
  · rename_i hhead
    rwa [if_pos hhead] at h
  · rename_i hhead
    rw [if_neg hhead] at h
    simp only [Option.bind_eq_some_iff] at h ⊢
    obtain ⟨x, hx, tmp, hprevious, hrest⟩ := h
    exact ⟨x, hx, tmp, previousOf_mono hle hprevious, hrest⟩

theorem deleteFrom_mono {test : α → Bool} {inner inner' : ℕ} {el : Option ℕ} (hle : n ≤ k)
    (hinner : inner ≤ inner') (h : deleteFrom test inner n el head m = some r) :
    deleteFrom test inner' k el head m = some r := by
  induction n generalizing el head m k with
  | zero => cases h
  | succ n ih =>
      obtain ⟨k, rfl⟩ := Nat.exists_eq_add_one_of_ne_zero (Nat.ne_zero_of_lt hle)
      have hle' : n ≤ k := Nat.le_of_succ_le_succ hle
      cases el with
      | none => exact h
      | some x =>
          simp only [deleteFrom, Option.bind_eq_some_iff] at h ⊢
          obtain ⟨cell, hcell, hrest⟩ := h
          refine ⟨cell, hcell, ?_⟩
          cases htest : test cell.item with
          | true =>
              simp only [htest, if_true, Option.bind_eq_some_iff] at hrest ⊢
              obtain ⟨r₁, hdelete, m₁, hfree, hrest⟩ := hrest
              exact ⟨r₁, delete_mono hinner hdelete, m₁, hfree, ih hle' hrest⟩
          | false =>
              rw [htest] at hrest
              exact ih hle' hrest

theorem deleteAll_mono {test : α → Bool} (hle : n ≤ k) (h : deleteAll test n head m = some r) :
    deleteAll test k head m = some r :=
  deleteFrom_mono hle hle h

variable {l : List (ℕ × α)} {cell : Cell α}

/-- The list that an append leaves, whatever fuel it had. -/
theorem Segment.of_append (h : Segment m head l none) (hcell : m a = some cell)
    (ha : a ∉ addresses l) (hrun : LinkedList.append n a head m = some r) :
    Segment r.2 r.1 (l ++ [(a, cell.item)]) none := by
  obtain ⟨p', m', hspec, hseg, -⟩ :=
    append_spec h hcell ha (Nat.lt_succ_of_le (Nat.le_max_left l.length n))
  have hsame := append_mono (Nat.le_succ_of_le (Nat.le_max_right l.length n)) hrun
  obtain rfl : (p', m') = r := Option.some.inj (hspec.symm.trans hsame)
  exact hseg

/-- The list that a deletion leaves, whatever fuel it had, and the cells it has freed. -/
theorem Segment.of_deleteAll {test : α → Bool} (h : Segment m head l none)
    (hrun : deleteAll test n head m = some r) :
    Segment r.2 r.1 (l.filter (!test ·.2)) none ∧ ∀ e ∈ l, test e.2 = true → r.2 e.1 = none := by
  obtain ⟨p', m', hspec, hseg, -, hfreed⟩ :=
    deleteAll_spec h (Nat.lt_succ_of_le (Nat.le_max_left l.length n))
  have hsame := deleteAll_mono (Nat.le_succ_of_le (Nat.le_max_right l.length n)) hrun
  obtain rfl : (p', m') = r := Option.some.inj (hspec.symm.trans hsame)
  exact ⟨hseg, hfreed⟩

end Fuel

/-! ## Several lists in one memory -/

/-- Lists that share a memory, each with a pointer to its first cell. -/
structure Lists (ι α : Type*) where
  memory : Memory α := fun _ => none
  head : ι → Option ℕ := fun _ => none

namespace Lists

variable {ι α : Type*} [DecidableEq ι]

/-- An operation on one of the lists. -/
def onList (i : ι) (f : Option ℕ → Memory α → Option (Option ℕ × Memory α)) (s : Lists ι α) :
    Option (Lists ι α) :=
  (f (s.head i) s.memory).map fun r =>
    { memory := r.2, head := Function.update s.head i r.1 }

/-- An operation on the memory alone. -/
def onMemory (f : Memory α → Option (Memory α)) (s : Lists ι α) : Option (Lists ι α) :=
  (f s.memory).map fun m => { s with memory := m }

/-- The lists are `cells`, and `loose` are allocated cells that are in none of them. No other
cell is allocated. -/
structure Holds (s : Lists ι α) (cells : ι → List (ℕ × α)) (loose : List (ℕ × α)) : Prop where
  list : ∀ i, Segment s.memory (s.head i) (cells i) none
  apart : ∀ i j, i ≠ j → ∀ a ∈ addresses (cells i), a ∉ addresses (cells j)
  allocated : ∀ e ∈ loose, ∃ next, s.memory e.1 = some ⟨next, e.2⟩
  outside : ∀ i, ∀ a ∈ addresses loose, a ∉ addresses (cells i)
  owned : ∀ a, s.memory a ≠ none → a ∈ addresses loose ∨ ∃ i, a ∈ addresses (cells i)
  bounded : ∃ n, ∀ a, n ≤ a → s.memory a = none

variable {s t : Lists ι α} {cells : ι → List (ℕ × α)} {loose loose' l front back : List (ℕ × α)}
  {i j : ι} {a fuel : ℕ} {v : α} {p : Option ℕ} {m : Memory α}

omit [DecidableEq ι] in
theorem Holds.init : Holds ({} : Lists ι α) (fun _ => []) [] where
  list _ := .nil none
  apart _ _ _ _ ha := by cases ha
  allocated _ he := by cases he
  outside _ _ ha := by cases ha
  owned _ ha := absurd rfl ha
  bounded := ⟨0, fun _ _ => rfl⟩

/-- The rule for an operation on one list: it touches the cells of this list and the loose ones,
and hands the cells that it leaves allocated over to the list or keeps them loose. -/
theorem Holds.replace (h : Holds s cells loose) (hlist : Segment m p l none)
    (hkeep : ∀ b, b ∉ addresses (cells i) → b ∉ addresses loose → m b = s.memory b)
    (hsub : ∀ b, b ∈ addresses l ∨ b ∈ addresses loose' →
      b ∈ addresses (cells i) ∨ b ∈ addresses loose)
    (hloose : ∀ e ∈ loose', (∃ next, m e.1 = some ⟨next, e.2⟩) ∧ e.1 ∉ addresses l)
    (howned : ∀ b, b ∈ addresses (cells i) ∨ b ∈ addresses loose → m b ≠ none →
      b ∈ addresses l ∨ b ∈ addresses loose') :
    Holds { memory := m, head := Function.update s.head i p } (Function.update cells i l)
      loose' := by
  have hothers : ∀ j, j ≠ i → ∀ b, b ∈ addresses (cells i) ∨ b ∈ addresses loose →
      b ∉ addresses (cells j) := by
    intro j hj b hb
    rcases hb with hb | hb
    · exact h.apart i j hj.symm b hb
    · exact h.outside j b hb
  refine ⟨?_, ?_, fun e he => (hloose e he).1, ?_, ?_, ?_⟩
  · intro j
    by_cases hj : j = i
    · subst hj
      simpa using hlist
    · simp only [Function.update_of_ne hj]
      apply (h.list j).congr
      intro b hb
      apply hkeep
      · exact h.apart j i hj b hb
      · exact fun hmem => h.outside j b hmem hb
  · intro j k hjk b hb
    by_cases hj : j = i
    · subst hj
      rw [Function.update_self] at hb
      rw [Function.update_of_ne hjk.symm]
      exact hothers k hjk.symm b (hsub b (.inl hb))
    · rw [Function.update_of_ne hj] at hb
      by_cases hk : k = i
      · subst hk
        rw [Function.update_self]
        exact fun hmem => hothers j hj b (hsub b (.inl hmem)) hb
      · rw [Function.update_of_ne hk]
        exact h.apart j k hjk b hb
  · intro j b hb
    by_cases hj : j = i
    · subst hj
      rw [Function.update_self]
      obtain ⟨e, he, rfl⟩ := List.mem_map.mp hb
      exact (hloose e he).2
    · rw [Function.update_of_ne hj]
      exact hothers j hj b (hsub b (.inr hb))
  · intro b hb
    have hb : m b ≠ none := hb
    by_cases htouched : b ∈ addresses (cells i) ∨ b ∈ addresses loose
    · rcases howned b htouched hb with hl | hl
      · exact .inr ⟨i, by rwa [Function.update_self]⟩
      · exact .inl hl
    · rw [not_or] at htouched
      rw [hkeep b htouched.1 htouched.2] at hb
      rcases h.owned b hb with hl | ⟨j, hj⟩
      · exact absurd hl htouched.2
      · have hne : j ≠ i := fun he => htouched.1 (he ▸ hj)
        exact .inr ⟨j, by rwa [Function.update_of_ne hne]⟩
  · obtain ⟨n, hn⟩ := h.bounded
    refine ⟨n, fun b hb => ?_⟩
    have hfree : s.memory b = none := hn b hb
    have hlist : b ∉ addresses (cells i) := fun hmem => (h.list i).allocated hmem hfree
    have hloose : b ∉ addresses loose := by
      intro hmem
      obtain ⟨e, he, rfl⟩ := List.mem_map.mp hmem
      obtain ⟨next, hcell⟩ := h.allocated e he
      rw [hfree] at hcell
      cases hcell
    exact (hkeep b hlist hloose).trans hfree

/-! ### One operation at a time -/

/-- A cell leaves its list. -/
theorem Holds.delete (h : Holds s cells []) (hi : cells i = front ++ (a, v) :: back)
    (hfuel : front.length < fuel) :
    ∃ t, s.onList i (delete fuel a) = some t ∧
      Holds t (Function.update cells i (front ++ back)) [(a, v)] := by
  have hlist := h.list i
  rw [hi] at hlist
  obtain ⟨p, m, hrun, hseg, hkeep⟩ := delete_spec hlist hfuel
  obtain ⟨next, hcell, -, -⟩ := hlist.cell
  obtain ⟨hfront, hback⟩ := notMem_of_nodup hlist.nodup
  have hmem : ∀ b, b ∈ addresses (cells i) ↔ b ∈ addresses (front ++ back) ∨ b = a := by
    intro b
    rw [hi]
    simp only [addresses, List.map_append, List.map_cons, List.mem_append, List.mem_cons]
    tauto
  refine ⟨_, by rw [onList, hrun, Option.map_some], h.replace hseg ?_ ?_ ?_ ?_⟩
  · intro b hb _
    apply hkeep
    intro hbfront
    exact hb ((hmem b).mpr (.inl (by rw [addresses_append]; exact List.mem_append_left _ hbfront)))
  · intro b hb
    rcases hb with hb | hb
    · exact .inl ((hmem b).mpr (.inl hb))
    · exact .inl ((hmem b).mpr (.inr (List.mem_singleton.mp hb)))
  · intro e he
    rw [List.mem_singleton.mp he]
    refine ⟨⟨next, by rw [hkeep a hfront, hcell]⟩, ?_⟩
    rw [addresses_append, List.mem_append, not_or]
    exact ⟨hfront, hback⟩
  · intro b hb _
    rcases hb with hb | hb
    · rcases (hmem b).mp hb with hl | rfl
      · exact .inl hl
      · exact .inr List.mem_cons_self
    · cases hb

/-- A loose cell joins a list at its end. -/
theorem Holds.append (h : Holds s cells [(a, v)]) (hfuel : (cells i).length < fuel) :
    ∃ t, s.onList i (append fuel a) = some t ∧
      Holds t (Function.update cells i (cells i ++ [(a, v)])) [] := by
  obtain ⟨next, hcell⟩ := h.allocated (a, v) List.mem_cons_self
  have ha : a ∉ addresses (cells i) := h.outside i a List.mem_cons_self
  obtain ⟨p, m, hrun, hseg, hkeep⟩ := append_spec (h.list i) hcell ha hfuel
  have hmem : ∀ b, b ∈ addresses (cells i ++ [(a, v)]) ↔
      b ∈ addresses (cells i) ∨ b ∈ addresses [(a, v)] := by
    intro b
    rw [addresses_append, List.mem_append]
  refine ⟨_, by rw [onList, hrun, Option.map_some], h.replace hseg ?_ ?_ (by simp) ?_⟩
  · intro b hb hba
    exact hkeep b (fun he => hba (he ▸ List.mem_cons_self)) hb
  · intro b hb
    rcases hb with hb | hb
    · exact (hmem b).mp hb
    · cases hb
  · intro b hb _
    exact .inl ((hmem b).mpr hb)

/-- A loose cell joins a list at its head. -/
theorem Holds.prepend (h : Holds s cells [(a, v)]) (i : ι) :
    ∃ t, s.onList i (prepend a) = some t ∧
      Holds t (Function.update cells i ((a, v) :: cells i)) [] := by
  obtain ⟨next, hcell⟩ := h.allocated (a, v) List.mem_cons_self
  have ha : a ∉ addresses (cells i) := h.outside i a List.mem_cons_self
  obtain ⟨m, hrun, hseg, hkeep⟩ := prepend_spec (h.list i) hcell ha
  have hmem : ∀ b, b ∈ addresses ((a, v) :: cells i) ↔
      b ∈ addresses (cells i) ∨ b ∈ addresses [(a, v)] := by
    intro b
    simp only [addresses, List.map_cons, List.map_nil, List.mem_cons, List.not_mem_nil]
    tauto
  refine ⟨_, by rw [onList, hrun, Option.map_some], h.replace hseg ?_ ?_ (by simp) ?_⟩
  · intro b _ hba
    exact hkeep b fun he => hba (he ▸ List.mem_cons_self)
  · intro b hb
    rcases hb with hb | hb
    · exact (hmem b).mp hb
    · cases hb
  · intro b hb _
    exact .inl ((hmem b).mpr hb)

/-- Every cell that passes a test leaves its list and is freed. -/
theorem Holds.deleteAll {test : α → Bool} (h : Holds s cells [])
    (hfuel : (cells i).length < fuel) :
    ∃ t, s.onList i (deleteAll test fuel) = some t ∧
      Holds t (Function.update cells i ((cells i).filter (!test ·.2))) [] := by
  obtain ⟨p, m, hrun, hseg, hkeep, hfreed⟩ := deleteAll_spec (h.list i) hfuel
  refine ⟨_, by rw [onList, hrun, Option.map_some], h.replace hseg ?_ ?_ (by simp) ?_⟩
  · intro b hb _
    exact hkeep b hb
  · intro b hb
    rcases hb with hb | hb
    · exact .inl ((List.filter_sublist.map Prod.fst).subset hb)
    · cases hb
  · intro b hb hne
    rcases hb with hb | hb
    · obtain ⟨e, he, rfl⟩ := List.mem_map.mp hb
      have hkept : test e.2 ≠ true := fun ht => hne (hfreed e he ht)
      exact .inl (List.mem_map_of_mem (List.mem_filter.mpr ⟨he, by simpa using hkept⟩))
    · cases hb

omit [DecidableEq ι] in
/-- A new cell. -/
theorem Holds.malloc (h : Holds s cells []) (ha : s.memory a = none) (v : α) :
    ∃ t, s.onMemory (malloc a v) = some t ∧ Holds t cells [(a, v)] := by
  have hnew : ∀ i, a ∉ addresses (cells i) := fun i hmem => (h.list i).allocated hmem ha
  refine ⟨{ s with memory := Function.update s.memory a (some ⟨none, v⟩) }, ?_, ?_, h.apart,
    ?_, ?_, ?_, ?_⟩
  · rw [onMemory, LinkedList.malloc, ha]
    rfl
  · exact fun i => (h.list i).update (hnew i) _
  · intro e he
    rw [List.mem_singleton.mp he]
    exact ⟨none, Function.update_self _ _ _⟩
  · intro i b hb
    rw [show b = a from List.mem_singleton.mp hb]
    exact hnew i
  · intro b hb
    by_cases hba : b = a
    · exact .inl (hba ▸ List.mem_cons_self)
    · have hb : s.memory b ≠ none := by
        simpa [Function.update_of_ne hba] using hb
      rcases h.owned b hb with hl | hl
      · cases hl
      · exact .inr hl
  · obtain ⟨n, hn⟩ := h.bounded
    refine ⟨max n (a + 1), fun b hb => ?_⟩
    have hba : b ≠ a := by omega
    exact (Function.update_of_ne hba _ _).trans (hn b (by omega))

omit [DecidableEq ι] in
/-- A loose cell is freed. -/
theorem Holds.free (h : Holds s cells [(a, v)]) :
    ∃ t, s.onMemory (free a) = some t ∧ Holds t cells [] := by
  obtain ⟨next, hcell⟩ := h.allocated (a, v) List.mem_cons_self
  refine ⟨{ s with memory := Function.update s.memory a none }, ?_, ?_, h.apart, by simp,
    by simp [addresses], ?_, ?_⟩
  · rw [onMemory, free_eq hcell, Option.map_some]
  · exact fun i => (h.list i).update (h.outside i a List.mem_cons_self) none
  · intro b hb
    by_cases hba : b = a
    · rw [hba] at hb
      exact absurd (Function.update_self _ _ _) hb
    · have hb : s.memory b ≠ none := by
        simpa [Function.update_of_ne hba] using hb
      rcases h.owned b hb with hl | hl
      · exact absurd (List.mem_singleton.mp hl) hba
      · exact .inr hl
  · obtain ⟨n, hn⟩ := h.bounded
    refine ⟨n, fun b hb => ?_⟩
    by_cases hba : b = a
    · rw [hba]
      exact Function.update_self _ _ _
    · exact (Function.update_of_ne hba _ _).trans (hn b hb)

/-! ### What the lists contain -/

/-- The lists hold these items, and nothing else is allocated. -/
def Contains (s : Lists ι α) (items : ι → List α) : Prop :=
  ∃ cells, Holds s cells [] ∧ ∀ i, (cells i).map Prod.snd = items i

variable {items : ι → List α} {before after : List α}

omit [DecidableEq ι] in
theorem Contains.init : Contains ({} : Lists ι α) fun _ => [] :=
  ⟨fun _ => [], Holds.init, fun _ => rfl⟩

omit [DecidableEq ι] in
theorem Contains.fresh (h : Contains s items) : ∃ a, s.memory a = none := by
  obtain ⟨cells, hcells, -⟩ := h
  obtain ⟨n, hn⟩ := hcells.bounded
  exact ⟨n, hn n (Nat.le_refl n)⟩

theorem map_update (cells : ι → List (ℕ × α)) (i : ι) (l : List (ℕ × α))
    (hitems : ∀ i, (cells i).map Prod.snd = items i) (j : ι) :
    (Function.update cells i l j).map Prod.snd =
      Function.update items i (l.map Prod.snd) j := by
  by_cases hj : j = i
  · subst hj
    rw [Function.update_self, Function.update_self]
  · rw [Function.update_of_ne hj, Function.update_of_ne hj, hitems]

omit [DecidableEq ι] in
theorem Contains.search (h : Contains s items) (test : α → Bool) (i : ι)
    (hfuel : (items i).length < fuel) :
    ∃ found, search test fuel (s.head i) s.memory = some found ∧
      (found = none ↔ ∀ v ∈ items i, test v = false) := by
  obtain ⟨cells, hcells, hitems⟩ := h
  rw [← hitems, List.length_map] at hfuel
  refine ⟨_, search_spec (hcells.list i) hfuel, ?_⟩
  rw [← hitems]
  simp only [Option.map_eq_none_iff, List.find?_eq_none, List.mem_map]
  constructor
  · rintro hnone v ⟨e, he, rfl⟩
    exact Bool.not_eq_true _ ▸ hnone e he
  · intro hnone e he
    rw [hnone e.2 ⟨e, he, rfl⟩]
    exact Bool.false_ne_true

theorem Contains.insert (h : Contains s items) (ha : s.memory a = none) (v : α) (i : ι)
    (hfuel : (items i).length < fuel) :
    ∃ t, (s.onMemory (LinkedList.malloc a v)).bind (onList i (LinkedList.append fuel a)) = some t ∧
      Contains t (Function.update items i (items i ++ [v])) := by
  obtain ⟨cells, hcells, hitems⟩ := h
  rw [← hitems, List.length_map] at hfuel
  obtain ⟨t, ht, hloose⟩ := hcells.malloc ha v
  obtain ⟨u, hu, hheld⟩ := hloose.append hfuel
  refine ⟨u, by rw [ht, Option.bind_some, hu], _, hheld, fun j => ?_⟩
  rw [map_update cells i _ hitems, List.map_append, hitems]
  rfl

/-- An element of a list stands in some cell. -/
theorem cells_of_items {l : List (ℕ × α)} (h : l.map Prod.snd = before ++ v :: after) :
    ∃ front a back, l = front ++ (a, v) :: back ∧ front.map Prod.snd = before ∧
      back.map Prod.snd = after := by
  obtain ⟨front, rest, rfl, hfront, hrest⟩ := List.map_eq_append_iff.mp h
  obtain ⟨⟨a, w⟩, back, rfl, rfl, hback⟩ := List.map_eq_cons_iff.mp hrest
  exact ⟨front, a, back, rfl, hfront, hback⟩

/-- The first element that passes a test leaves its list and is freed. -/
theorem Contains.remove (h : Contains s items) (test : α → Bool)
    (hi : items i = before ++ v :: after) (hv : test v = true)
    (hbefore : ∀ w ∈ before, test w = false) (hfuel : (items i).length < fuel) :
    ∃ a, LinkedList.search test fuel (s.head i) s.memory = some (some a) ∧
      ∃ t, (s.onList i (LinkedList.delete fuel a)).bind (onMemory (LinkedList.free a)) = some t ∧
        Contains t (Function.update items i (before ++ after)) := by
  obtain ⟨cells, hcells, hitems⟩ := h
  obtain ⟨front, a, back, hsplit, hfront, hback⟩ := cells_of_items ((hitems i).trans hi)
  rw [← hitems, List.length_map] at hfuel
  refine ⟨a, ?_, ?_⟩
  · have hnot : front.find? (test ·.2) = none := by
      rw [List.find?_eq_none]
      intro e he
      rw [hbefore e.2 (hfront ▸ List.mem_map_of_mem he)]
      exact Bool.false_ne_true
    rw [search_spec (hcells.list i) hfuel, hsplit, List.find?_append, hnot, Option.none_or]
    simp [hv]
  · rw [hsplit, List.length_append] at hfuel
    obtain ⟨t, ht, hloose⟩ := hcells.delete hsplit (Nat.lt_of_le_of_lt (Nat.le_add_right _ _) hfuel)
    obtain ⟨u, hu, hheld⟩ := hloose.free
    refine ⟨u, by rw [ht, Option.bind_some, hu], _, hheld, fun k => ?_⟩
    rw [map_update cells i _ hitems, List.map_append, hfront, hback]

/-- Every element that passes a test leaves its list and is freed. -/
theorem Contains.deleteAll (h : Contains s items) (test : α → Bool) (i : ι)
    (hfuel : (items i).length < fuel) :
    ∃ t, s.onList i (LinkedList.deleteAll test fuel) = some t ∧
      Contains t (Function.update items i ((items i).filter (!test ·))) := by
  obtain ⟨cells, hcells, hitems⟩ := h
  rw [← hitems, List.length_map] at hfuel
  obtain ⟨t, ht, hheld⟩ := hcells.deleteAll hfuel
  refine ⟨t, ht, _, hheld, fun k => ?_⟩
  rw [map_update cells i _ hitems, ← hitems i, List.filter_map]
  rfl

end Lists

end LinkedList
