-- SUMMARY: There is one way to sort and keep what is tied in order, and sorting by another order can be undone.
import SchemaAlgebra.Algebra.Union
import Mathlib.Data.List.Forall2
import Mathlib.Data.List.Pairwise

/-!
# Stable sorting

Branches and constraints are sorted by texts, and texts depend on the names that a
space gave. Two branches with one text stay in the order in which they came. So a list
that is sorted by the texts of one space is found again after it was sorted by those of
another, as long as what is tied in the first is tied in the second. This is shown of
sorting by merging, to which the insertion that the algebra runs comes down.
-/

namespace SchemaAlgebra

section

variable {α β : Type} {le le' : α → α → Bool}

theorem insertSorted_append {a : α} {before after : List α} (hbefore : ∀ b ∈ before, le a b = false)
    (hafter : ∀ b ∈ after, le a b = true) : insertSorted le a (before ++ after) = before ++ a :: after := by
  induction before with
  | nil =>
      cases after with
      | nil => rfl
      | cons b rest => exact if_pos (hafter b List.mem_cons_self)
  | cons b rest ih =>
      obtain ⟨hb, hrest⟩ := List.forall_mem_cons.mp hbefore
      rw [List.cons_append, insertSorted, hb, if_neg Bool.false_ne_true, ih hrest, List.cons_append]

/-- There is one way to sort a list and leave ties as they are. -/
theorem stableSort_eq (htrans : ∀ a b c, le a b → le b c → le a c) (htotal : ∀ a b, le a b || le b a) (l : List α) :
    stableSort le l = l.mergeSort le := by
  induction l with
  | nil => rw [stableSort, List.mergeSort_nil]
  | cons a rest ih =>
      obtain ⟨before, after, hsorted, hrest, hbefore⟩ := List.mergeSort_cons htrans htotal a rest
      have hpairwise := List.pairwise_mergeSort htrans htotal (a :: rest)
      rw [hsorted] at hpairwise
      have hafter := (List.pairwise_cons.mp (List.pairwise_append.mp hpairwise).2.1).1
      rw [stableSort, ih, hrest, hsorted]
      exact insertSorted_append (fun b hb => by simpa using hbefore b hb) hafter

/-- Elements that an order does not tell apart. -/
def tied (le : α → α → Bool) (a b : α) : Bool := le a b && le b a

/-- Sorting leaves elements alone among each other that are all in order. -/
theorem filter_mergeSort (htrans : ∀ a b c, le a b → le b c → le a c) (htotal : ∀ a b, le a b || le b a)
    {p : α → Bool} {l : List α} (h : ∀ a ∈ l, ∀ b ∈ l, p a = true → p b = true → le a b = true) :
    (l.mergeSort le).filter p = l.filter p := by
  have hordered : (l.filter p).Pairwise (le · ·) := by
    refine List.pairwise_of_forall_mem_list fun a ha b hb => ?_
    obtain ⟨ha, hpa⟩ := List.mem_filter.mp ha
    obtain ⟨hb, hpb⟩ := List.mem_filter.mp hb
    exact h a ha b hb hpa hpb
  have hsublist := (List.sublist_mergeSort htrans htotal hordered List.filter_sublist).filter p
  rw [List.filter_filter] at hsublist
  simp only [Bool.and_self] at hsublist
  exact (hsublist.eq_of_length ((List.mergeSort_perm l le).filter p).length_eq.symm).symm

/-- Sorted lists are equal if they agree on what is tied to any element. -/
theorem eq_of_filter_tied (htotal : ∀ a b, le a b || le b a) {l l' : List α} (hl : l.Pairwise (le · ·))
    (hl' : l'.Pairwise (le · ·)) (h : ∀ x, l.filter (tied le x) = l'.filter (tied le x)) : l = l' := by
  have hself (x : α) : tied le x x = true := by simpa [tied] using htotal x x
  induction l generalizing l' with
  | nil =>
      cases l' with
      | nil => rfl
      | cons y rest' =>
          have hy := h y
          rw [List.filter_cons_of_pos (hself y)] at hy
          cases hy
  | cons x rest ih =>
      cases l' with
      | nil =>
          have hx := h x
          rw [List.filter_cons_of_pos (hself x)] at hx
          cases hx
      | cons y rest' =>
          -- Each head is found in the other list, behind its head.
          have hbefore {a b : α} {others : List α} (hsorted : (b :: others).Pairwise (le · ·))
              (hmem : a ∈ (b :: others).filter (tied le a)) : le b a = true := by
            rcases List.mem_cons.mp (List.mem_filter.mp hmem).1 with rfl | hmem
            · simpa using htotal a a
            · exact List.rel_of_pairwise_cons hsorted hmem
          have hx : x ∈ (x :: rest).filter (tied le x) := by
            rw [List.filter_cons_of_pos (hself x)]
            exact List.mem_cons_self
          have hy : y ∈ (y :: rest').filter (tied le y) := by
            rw [List.filter_cons_of_pos (hself y)]
            exact List.mem_cons_self
          have hyx : le y x = true := hbefore hl' (h x ▸ hx)
          have hxy : le x y = true := hbefore hl ((h y).symm ▸ hy)
          have htied : tied le x y = true := by rw [tied, hxy, hyx]; rfl
          have hheads := h x
          rw [List.filter_cons_of_pos (hself x), List.filter_cons_of_pos htied] at hheads
          obtain rfl := (List.cons.inj hheads).1
          refine congrArg (x :: ·) (ih hl.of_cons hl'.of_cons fun z => ?_)
          have hz := h z
          by_cases hzx : tied le z x = true
          · rw [List.filter_cons_of_pos hzx, List.filter_cons_of_pos hzx] at hz
            exact (List.cons.inj hz).2
          · rwa [List.filter_cons_of_neg hzx, List.filter_cons_of_neg hzx] at hz

/-- A sorted list is found again after it was sorted by an order with the same ties and more. -/
theorem mergeSort_mergeSort (htrans : ∀ a b c, le a b → le b c → le a c) (htotal : ∀ a b, le a b || le b a)
    (htrans' : ∀ a b c, le' a b → le' b c → le' a c) (htotal' : ∀ a b, le' a b || le' b a) {l : List α}
    (hsorted : l.Pairwise (le · ·)) (hties : ∀ a ∈ l, ∀ b ∈ l, tied le a b = true → le' a b = true) :
    (l.mergeSort le').mergeSort le = l := by
  refine eq_of_filter_tied htotal (List.pairwise_mergeSort htrans htotal _) hsorted fun x => ?_
  have hclass {a b : α} (ha : tied le x a = true) (hb : tied le x b = true) : tied le a b = true := by
    simp only [tied, Bool.and_eq_true] at ha hb ⊢
    exact ⟨htrans a x b ha.2 hb.1, htrans b x a hb.2 ha.1⟩
  rw [filter_mergeSort htrans htotal fun a _ b _ ha hb => (Bool.and_eq_true_iff.mp (hclass ha hb)).1]
  exact filter_mergeSort htrans' htotal' fun a ha b hb hxa hxb => hties a ha b hb (hclass hxa hxb)

/-- Sorted lists with the same images in any order have the same images, where an image tells an element's place. -/
theorem map_eq_of_sorted {f : α → α} {P : α → Prop} (hle : ∀ a b, P a → P b → le (f a) (f b) = le a b)
    (hties : ∀ a b, P a → P b → tied le a b = true → f a = f b) {l l' : List α} (hl : ∀ a ∈ l, P a)
    (hl' : ∀ a ∈ l', P a) (hsorted : l.Pairwise (le · ·)) (hsorted' : l'.Pairwise (le · ·))
    (hperm : (l.map f).Perm (l'.map f)) : l.map f = l'.map f := by
  have himages {l : List α} (hl : ∀ a ∈ l, P a) (hsorted : l.Pairwise (le · ·)) :
      (l.map f).Pairwise fun a b => le a b = true := by
    refine List.pairwise_map.mpr (hsorted.imp_of_mem fun ha hb hab => ?_)
    rw [hle _ _ (hl _ ha) (hl _ hb)]
    exact hab
  refine hperm.eq_of_pairwise (fun x y hx hy hxy hyx => ?_) (himages hl hsorted) (himages hl' hsorted')
  obtain ⟨a, ha, rfl⟩ := List.mem_map.mp hx
  obtain ⟨b, hb, rfl⟩ := List.mem_map.mp hy
  rw [hle _ _ (hl a ha) (hl' b hb)] at hxy
  rw [hle _ _ (hl' b hb) (hl a ha)] at hyx
  exact hties a b (hl a ha) (hl' b hb) (Bool.and_eq_true_iff.mpr ⟨hxy, hyx⟩)

/-- Lists that are related element by element, as the two sides of a list of related pairs. -/
theorem exists_pairs_of_forall₂ {r : α → β → Prop} {l : List α} {l' : List β} (h : List.Forall₂ r l l') :
    ∃ pairs : List (α × β), (∀ p ∈ pairs, r p.1 p.2) ∧ pairs.map Prod.fst = l ∧ pairs.map Prod.snd = l' := by
  obtain ⟨hlength, hpairs⟩ := List.forall₂_iff_zip.mp h
  exact ⟨l.zip l', fun _ hp => hpairs hp, List.map_fst_zip (Nat.le_of_eq hlength),
    List.map_snd_zip (Nat.le_of_eq hlength.symm)⟩

/-- Copies of a sorted list are sorted by an order of their own. Their originals, in the order of the copies, are
sorted to the list they were, if the copies of what is tied are in order. -/
theorem exists_order_of_copies (htrans : ∀ a b c, le a b → le b c → le a c) (htotal : ∀ a b, le a b || le b a)
    {r : α → α → Prop} {l copies : List α} (h : List.Forall₂ r l copies) (hsorted : l.Pairwise (le · ·))
    (hties : ∀ a b a' b', r a a' → r b b' → tied le a b = true → le a' b' = true) :
    ∃ order, List.Forall₂ r order (copies.mergeSort le) ∧ order.mergeSort le = l := by
  obtain ⟨pairs, hpairs, rfl, rfl⟩ := exists_pairs_of_forall₂ h
  have hback := @mergeSort_mergeSort _ (fun p q : α × α => le p.1 q.1) (fun p q => le p.2 q.2)
    (fun _ _ _ => htrans _ _ _) (fun _ _ => htotal _ _) (fun _ _ _ => htrans _ _ _) (fun _ _ => htotal _ _) pairs
    (List.pairwise_map.mp hsorted) fun p hp q hq => hties _ _ _ _ (hpairs p hp) (hpairs q hq)
  have hcopies : (pairs.map Prod.snd).mergeSort le = (pairs.mergeSort fun p q => le p.2 q.2).map Prod.snd :=
    (@List.map_mergeSort _ _ (fun p q : α × α => le p.2 q.2) le Prod.snd pairs fun _ _ _ _ => rfl).symm
  refine ⟨(pairs.mergeSort fun p q => le p.2 q.2).map Prod.fst, ?_, ?_⟩
  · rw [hcopies, List.forall₂_map_left_iff, List.forall₂_map_right_iff, List.forall₂_same]
    exact fun p hp => hpairs p (List.mem_mergeSort.mp hp)
  · have hmap := @List.map_mergeSort _ _ (fun p q : α × α => le p.1 q.1) le Prod.fst
      (pairs.mergeSort fun p q => le p.2 q.2) fun _ _ _ _ => rfl
    rw [← hmap, hback]

/-- Lists that are ordered alike element by element stay related when they are sorted. -/
theorem forall₂_mergeSort {r : α → β → Prop} {leβ : β → β → Bool} {l : List α} {l' : List β}
    (h : List.Forall₂ r l l') (hle : ∀ a a' b b', r a b → r a' b' → le a a' = leβ b b') :
    List.Forall₂ r (l.mergeSort le) (l'.mergeSort leβ) := by
  obtain ⟨pairs, hpairs, rfl, rfl⟩ := exists_pairs_of_forall₂ h
  have hsame : ∀ p ∈ pairs, ∀ q ∈ pairs, le p.1 q.1 = leβ p.2 q.2 := fun p hp q hq =>
    hle _ _ _ _ (hpairs p hp) (hpairs q hq)
  have hsecond : (pairs.map Prod.snd).mergeSort leβ = (pairs.mergeSort fun p q => le p.1 q.1).map Prod.snd :=
    (List.map_mergeSort hsame).symm
  have hfirst : (pairs.map Prod.fst).mergeSort le = (pairs.mergeSort fun p q => le p.1 q.1).map Prod.fst :=
    (@List.map_mergeSort _ _ (fun p q : α × β => le p.1 q.1) le Prod.fst pairs fun _ _ _ _ => rfl).symm
  rw [hfirst, hsecond, List.forall₂_map_left_iff, List.forall₂_map_right_iff, List.forall₂_same]
  exact fun p hp => hpairs p (List.mem_mergeSort.mp hp)

end

namespace Node

/-- The order of branches, as an order of nodes. -/
def branchLE (a b : Node) : Bool := decide (a.typeJson.compact ≤ b.typeJson.compact)

theorem branchLE_trans (a b c : Node) (h : branchLE a b = true) (h' : branchLE b c = true) : branchLE a c = true :=
  decide_eq_true (String.le_trans (of_decide_eq_true h) (of_decide_eq_true h'))

theorem branchLE_total (a b : Node) : (branchLE a b || branchLE b a) = true := by
  simpa [branchLE] using String.le_total a.typeJson.compact b.typeJson.compact

theorem sortBranches_eq (branches : List Node) : sortBranches branches = branches.mergeSort branchLE := by
  have htrans (a b c : String × Node) (h : decide (a.1 ≤ b.1) = true) (h' : decide (b.1 ≤ c.1) = true) :
      decide (a.1 ≤ c.1) = true :=
    decide_eq_true (String.le_trans (of_decide_eq_true h) (of_decide_eq_true h'))
  have htotal (a b : String × Node) : (decide (a.1 ≤ b.1) || decide (b.1 ≤ a.1)) = true := by
    simpa using String.le_total a.1 b.1
  have hkeys : ∀ a ∈ branches.map fun branch => (branch.typeJson.compact, branch),
      ∀ b ∈ branches.map fun branch => (branch.typeJson.compact, branch),
        decide (a.1 ≤ b.1) = branchLE a.2 b.2 := by
    intro a ha b hb
    obtain ⟨x, -, rfl⟩ := List.mem_map.mp ha
    obtain ⟨y, -, rfl⟩ := List.mem_map.mp hb
    rfl
  rw [sortBranches, stableSort_eq htrans htotal, List.map_mergeSort hkeys, List.map_map]
  exact congrArg (List.mergeSort · branchLE) (List.map_id branches)

end Node

end SchemaAlgebra
