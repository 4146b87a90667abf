import Mathlib.Tactic

/-! # Selection sort in place

Pass `i` looks for a least element from position `i` on, the first of several, and exchanges
it with the one at `i`. Elements are compared by a key. -/

namespace SelectionSort

variable {α β : Type*} [Inhabited α] [LinearOrder β] (key : α → β)

/-- The loop of pass `i` that looks for the least element. -/
def minIdx (xs : Array α) (i : ℕ) : ℕ :=
  (List.range' (i + 1) (xs.size - (i + 1))).foldl
    (fun min j => if key xs[j]! < key xs[min]! then j else min) i

def pass (xs : Array α) (i : ℕ) : Array α := xs.swapIfInBounds i (minIdx key xs i)

def sort (xs : Array α) : Array α := (List.range (xs.size - 1)).foldl (pass key) xs

/-! ## One pass -/

/-- The loop keeps a position whose key is least among those it has seen. -/
theorem foldl_least (f : ℕ → β) (l : List ℕ) (i : ℕ) :
    let m := l.foldl (fun min j => if f j < f min then j else min) i
    m ∈ i :: l ∧ ∀ j ∈ i :: l, f m ≤ f j := by
  induction l generalizing i with
  | nil => simp
  | cons a l ih =>
      rw [List.foldl_cons]
      obtain ⟨hmem, hleast⟩ := ih (if f a < f i then a else i)
      generalize l.foldl (fun min j => if f j < f min then j else min)
        (if f a < f i then a else i) = m at hmem hleast
      by_cases hlt : f a < f i
      · rw [if_pos hlt] at hmem hleast
        refine ⟨List.mem_cons_of_mem i hmem, ?_⟩
        intro j hj
        rcases List.mem_cons.mp hj with rfl | hj
        · exact (hleast a List.mem_cons_self).trans hlt.le
        · exact hleast j hj
      · rw [if_neg hlt] at hmem hleast
        have hi : f m ≤ f i := hleast i List.mem_cons_self
        refine ⟨?_, ?_⟩
        · rcases List.mem_cons.mp hmem with rfl | hmem
          · exact List.mem_cons_self
          · exact List.mem_cons_of_mem i (List.mem_cons_of_mem a hmem)
        · intro j hj
          rcases List.mem_cons.mp hj with rfl | hj
          · exact hi
          · rcases List.mem_cons.mp hj with rfl | hj
            · exact hi.trans (not_lt.mp hlt)
            · exact hleast j (List.mem_cons_of_mem i hj)

variable {xs : Array α} {i : ℕ}

theorem minIdx_spec (hi : i < xs.size) :
    i ≤ minIdx key xs i ∧ minIdx key xs i < xs.size ∧
      ∀ j, i ≤ j → j < xs.size → key xs[minIdx key xs i]! ≤ key xs[j]! := by
  obtain ⟨hmem, hleast⟩ := foldl_least (fun j => key xs[j]!)
    (List.range' (i + 1) (xs.size - (i + 1))) i
  change minIdx key xs i ∈ _ at hmem
  rw [List.mem_cons, List.mem_range'_1] at hmem
  refine ⟨by omega, by omega, ?_⟩
  intro j hij hj
  apply hleast
  rw [List.mem_cons, List.mem_range'_1]
  omega

variable {key}

@[simp] theorem size_pass : (pass key xs i).size = xs.size := by
  simp [pass]

theorem pass_perm (hi : i < xs.size) : (pass key xs i).Perm xs := by
  have hm := (minIdx_spec key hi).2.1
  rw [pass, Array.swapIfInBounds_def, dif_pos hi, dif_pos hm]
  exact Array.swap_perm hi hm

theorem getElem!_swapIfInBounds {m k : ℕ} (hi : i < xs.size) (hm : m < xs.size)
    (hk : k < xs.size) : (xs.swapIfInBounds i m)[k]! =
      if k = i then xs[m]! else if k = m then xs[i]! else xs[k]! := by
  have hk' : k < (xs.swapIfInBounds i m).size := by simpa using hk
  rw [getElem!_pos (xs.swapIfInBounds i m) k hk', getElem!_pos xs i hi, getElem!_pos xs m hm,
    getElem!_pos xs k hk]
  grind

/-! ## All passes -/

/-- No element of the first `i` has a greater key than one behind it. -/
def SortedUpTo (key : α → β) (xs : Array α) (i : ℕ) : Prop :=
  ∀ a b, a < i → a < b → b < xs.size → key xs[a]! ≤ key xs[b]!

theorem SortedUpTo.pass (h : SortedUpTo key xs i) (hi : i < xs.size) :
    SortedUpTo key (pass key xs i) (i + 1) := by
  obtain ⟨hle, hm, hleast⟩ := minIdx_spec key hi
  intro a b ha hab hb
  rw [size_pass] at hb
  rw [SelectionSort.pass, getElem!_swapIfInBounds hi hm (hab.trans hb),
    getElem!_swapIfInBounds hi hm hb]
  rcases Nat.lt_succ_iff_lt_or_eq.mp ha with hlt | rfl
  · -- positions before `i` stay, and those behind still hold elements from behind
    rw [if_neg (by omega), if_neg (by omega)]
    split
    · exact h a _ hlt (by omega) hm
    · split
      · exact h a _ hlt hlt hi
      · exact h a b hlt hab hb
  · rw [if_pos rfl, if_neg (by omega)]
    split
    · exact hleast _ le_rfl hi
    · exact hleast b hab.le hb

/-- The first passes, one after the other. -/
theorem passes_spec (key : α → β) (xs : Array α) (n : ℕ) (hn : n ≤ xs.size) :
    let ys := (List.range n).foldl (pass key) xs
    ys.Perm xs ∧ SortedUpTo key ys n := by
  induction n with
  | zero =>
      refine ⟨Array.Perm.refl xs, ?_⟩
      intro a b ha
      exact absurd ha (Nat.not_lt_zero a)
  | succ n ih =>
      obtain ⟨hperm, hsorted⟩ := ih (by omega)
      rw [List.range_succ, List.foldl_append, List.foldl_cons, List.foldl_nil]
      have hsize : n < ((List.range n).foldl (pass key) xs).size := by
        rw [hperm.size_eq]
        omega
      exact ⟨(pass_perm hsize).trans hperm, hsorted.pass hsize⟩

theorem sort_perm (key : α → β) (xs : Array α) : (sort key xs).toList.Perm xs.toList :=
  (passes_spec key xs (xs.size - 1) (by omega)).1.toList

/-- The keys ascend. -/
theorem sort_pairwise (xs : Array α) :
    (sort key xs).toList.Pairwise fun a b => key a ≤ key b := by
  obtain ⟨hperm, hsorted⟩ := passes_spec key xs (xs.size - 1) (by omega)
  rw [List.pairwise_iff_getElem]
  intro a b ha hb hab
  have hsize : (sort key xs).size = xs.size := hperm.size_eq
  rw [Array.length_toList] at ha hb
  have h : key (sort key xs)[a]! ≤ key (sort key xs)[b]! := hsorted a b (by omega) hab hb
  rw [getElem!_pos (sort key xs) a ha, getElem!_pos (sort key xs) b hb] at h
  simpa using h

end SelectionSort
