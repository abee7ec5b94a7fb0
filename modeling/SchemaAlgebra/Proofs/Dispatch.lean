-- SUMMARY: Dispatch of unions: discriminants sort the branches, and trying the branches of one case decides the union.
import SchemaAlgebra.Proofs.Reachable
import SchemaAlgebra.Stock

/-!
# Dispatch

The cases of a discriminant sort the places of the branches: each place stands in
one case, and within it the places ascend. What a union accepts is what some
branch accepts, so that unions of the same branches agree, whether or not the
spaces they were made in look for discriminants.
-/

namespace SchemaAlgebra

namespace Discriminant

-- ---------------------------------------------------------------------------
-- Partitions
-- ---------------------------------------------------------------------------

/-- Every place below a number stands in one case, and within each case the places ascend. -/
structure Partition (places : Nat) (cases : List DiscriminantCase) : Prop where
  each : (cases.flatMap DiscriminantCase.branches).Perm (List.range places)
  ascending : ∀ c ∈ cases, c.branches.Pairwise (· < ·)

theorem flatMap_addBranch (key : CaseKey) (place : Nat) (cases : List DiscriminantCase) :
    ((addBranch key place cases).flatMap DiscriminantCase.branches).Perm
      (cases.flatMap DiscriminantCase.branches ++ [place]) := by
  induction cases with
  | nil => exact .refl _
  | cons c rest ih =>
      rw [addBranch]
      split
      · rw [List.flatMap_cons, List.flatMap_cons, List.append_assoc, List.append_assoc]
        exact List.perm_append_comm.append_left _
      · rw [List.flatMap_cons, List.flatMap_cons, List.append_assoc]
        exact ih.append_left _

/-- A case of which a place became part held only earlier places, or none. -/
theorem mem_addBranch {key : CaseKey} {place : Nat} {cases : List DiscriminantCase} {c : DiscriminantCase}
    (h : c ∈ addBranch key place cases) :
    c ∈ cases ∨ c.branches = [place] ∨ ∃ old ∈ cases, c.branches = old.branches ++ [place] := by
  induction cases with
  | nil => exact .inr (.inl (by rw [List.mem_singleton.mp h]))
  | cons first rest ih =>
      rw [addBranch] at h
      split at h
      · rcases List.mem_cons.mp h with rfl | h
        · exact .inr (.inr ⟨first, List.mem_cons_self, rfl⟩)
        · exact .inl (List.mem_cons_of_mem _ h)
      · rcases List.mem_cons.mp h with rfl | h
        · exact .inl List.mem_cons_self
        · rcases ih h with hc | hnew | ⟨old, hold, heq⟩
          · exact .inl (List.mem_cons_of_mem _ hc)
          · exact .inr (.inl hnew)
          · exact .inr (.inr ⟨old, List.mem_cons_of_mem _ hold, heq⟩)

theorem Partition.addBranch {place : Nat} {cases : List DiscriminantCase} (h : Partition place cases) (key : CaseKey) :
    Partition (place + 1) (addBranch key place cases) where
  each := by
    rw [List.range_succ]
    exact (flatMap_addBranch key place cases).trans (h.each.append_right _)
  ascending := by
    intro c hc
    rcases mem_addBranch hc with hc | hnew | ⟨old, hold, heq⟩
    · exact h.ascending c hc
    · rw [hnew]
      exact List.pairwise_singleton _ _
    · rw [heq]
      refine List.pairwise_append.mpr ⟨h.ascending old hold, List.pairwise_singleton _ _, fun i hi j hj => ?_⟩
      rw [List.mem_singleton.mp hj]
      exact List.mem_range.mp (h.each.mem_iff.mp (List.mem_flatMap.mpr ⟨old, hold, hi⟩))

/-- Sorting branches into cases loses none and keeps their order. -/
theorem partition_casesOf (keys : List CaseKey) : Partition keys.length (casesOf keys) := by
  have hfold (rest : List CaseKey) (place : Nat) (cases : List DiscriminantCase) (h : Partition place cases) :
      Partition (place + rest.length)
        ((rest.zipIdx place).foldl (fun cases pair => Discriminant.addBranch pair.1 pair.2 cases) cases) := by
    induction rest generalizing place cases with
    | nil => exact h
    | cons key rest ih =>
        rw [List.zipIdx_cons, List.foldl_cons, List.length_cons, ← Nat.add_assoc, Nat.add_right_comm]
        exact ih _ _ (h.addBranch key)
  have hall := hfold keys 0 [] ⟨.refl _, List.forall_mem_nil _⟩
  rw [Nat.zero_add] at hall
  exact hall

theorem length_answers? {α : Type} {ask : Node → Option α} {branches : List Node} {answers : List α}
    (h : answers? ask branches = some answers) : answers.length = branches.length := by
  unfold answers? at h
  induction branches generalizing answers with
  | nil => cases h; rfl
  | cons first rest ih =>
      rw [List.mapM_cons] at h
      obtain ⟨answer, -, h⟩ := Option.bind_eq_some_iff.mp h
      obtain ⟨others, hothers, h⟩ := Option.bind_eq_some_iff.mp h
      cases h
      rw [List.length_cons, List.length_cons, ih hothers]

theorem cases_of_ofAnswers? {probe : Probe} {path : List PropKey} {keys : List CaseKey} {d : Discriminant}
    (h : ofAnswers? probe path keys = some d) : d.cases = casesOf keys := by
  unfold ofAnswers? at h
  dsimp only at h
  split at h
  · cases h; rfl
  · cases h

/-- The discriminant of a union sorts its branches. -/
theorem partition_ofBranches? {branches : List Node} {d : Discriminant} (h : ofBranches? branches = some d) :
    Partition branches.length d.cases := by
  have hpartition {α : Type} {ask : Node → Option α} {answers : List α} {key : α → CaseKey} {probe : Probe}
      {path : List PropKey} (hall : answers? ask branches = some answers)
      (hd : ofAnswers? probe path (answers.map key) = some d) : Partition branches.length d.cases := by
    rw [cases_of_ofAnswers? hd, ← length_answers? hall, ← List.length_map key]
    exact partition_casesOf _
  unfold ofBranches? at h
  split at h
  · cases h
  have hmem := best?_mem h
  simp only [questions, List.mem_append, Option.mem_toList, List.mem_filterMap] at hmem
  rcases hmem with (hdomain | hunit) | ⟨key, -, hprop⟩
  · obtain ⟨domains, hall, hd⟩ := Option.bind_eq_some_iff.mp hdomain
    exact hpartition hall hd
  · obtain ⟨units, hall, hd⟩ := Option.bind_eq_some_iff.mp hunit
    exact hpartition hall hd
  · obtain ⟨units, hall, hd⟩ := Option.bind_eq_some_iff.mp hprop
    exact hpartition hall hd

end Discriminant

-- ---------------------------------------------------------------------------
-- Unions
-- ---------------------------------------------------------------------------

namespace Node

variable [Behaviour]

/-- A union of a reachable space accepts what some branch accepts, with a discriminant as without; a union of
another space that says the same accepts the same; and a discriminant sorts the branches. -/
theorem union_dispatches {adopting : Prop} {space : Space} (hreachable : space.Reachable adopting) {node : Node}
    (hnode : space.Holds node) {branches : List Node} {ordered : Bool} (hc : node.content = .union branches ordered) :
    (∀ v, node.allows v = true ↔ ∃ branch ∈ branches, branch.allows v = true) ∧
      (∀ (other : Space) (twin : Node) (names : Registry), other.Reachable adopting → other.Holds twin →
        twin.plain names = node.plain names → ∀ v, twin.allows v = node.allows v) ∧
      ∀ d, node.discriminant = some d → Discriminant.Partition branches.length d.cases := by
  have hvalid := hreachable.valid
  refine ⟨fun v => ?_, fun other twin names hother htwin hsame v => ?_, fun d hd => ?_⟩
  · rw [allows_union hvalid hnode hc]
    exact anyAllows_iff
  · rw [← allows_plain (hvalid.everywhere_written hnode) names, ← hsame,
      allows_plain (hother.valid.everywhere_written htwin) names]
  · obtain ⟨branches', ordered', hc', hbranches⟩ := (hvalid.written node hnode).discriminant d hd
    rw [hc] at hc'
    cases hc'
    exact Discriminant.partition_ofBranches? hbranches

/-- A union that is told apart by some question. -/
def isDiscriminated (node : Node) : Bool := node.kind = .union && node.discriminant.isSome

omit [Behaviour] in
/-- The branches of `"a"` or `"b"` are told apart by the value itself. -/
theorem two_units_dispatch : ∃ (space : Space) (node : Node) (branches : List Node) (ordered : Bool) (d : Discriminant),
    @Space.Reachable Stock.behaviour True space ∧ space.Holds node ∧ node.content = .union branches ordered ∧
      node.discriminant = some d ∧ Discriminant.Partition branches.length d.cases ∧
      ∀ v, @Node.allows Stock.behaviour node v = true ↔
        ∃ branch ∈ branches, @Node.allows Stock.behaviour branch v = true := by
  let _ := Stock.behaviour
  let written : Definition :=
    .map [("branches", .list [.value (.string "a"), .value (.string "b")]), ("ordered", .bool true)]
  have hyields : written.readRoot.yields (.new 0 .standard) isDiscriminated = true := by
    decide +kernel
  obtain ⟨node, hread, htest⟩ := SpaceM.yields_iff.mp hyields
  obtain ⟨hreachable, -, hholds⟩ := (@Space.Reachable.new _ True 0 .standard).read (d := written) (List.forall_mem_nil _)
  rw [isDiscriminated, Bool.and_eq_true, decide_eq_true_eq] at htest
  obtain ⟨hkind, hsome⟩ := htest
  obtain ⟨d, hd⟩ := Option.isSome_iff_exists.mp hsome
  rw [kind] at hkind
  cases hc : node.content with
  | union branches ordered =>
      obtain ⟨hallows, -, hpartition⟩ := union_dispatches hreachable (hholds node hread) hc
      exact ⟨_, node, branches, ordered, d, hreachable, hholds node hread, hc, hd, hpartition d hd, hallows⟩
  | _ => rw [hc] at hkind; cases hkind

end Node

end SchemaAlgebra
