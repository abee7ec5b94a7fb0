-- SUMMARY: Deciding what is said of nodes and spaces: reachable nodes, tame nodes, and regular spaces.
import SchemaAlgebra.Proofs.Meaning

/-!
# Decidable properties

What a statement asks of a node and everything in it, or of all that a space holds,
can be checked by looking at each, so that statements can be tried on spaces at hand.
-/

namespace SchemaAlgebra

namespace Node

-- ---------------------------------------------------------------------------
-- Everything in a node
-- ---------------------------------------------------------------------------

mutual

/-- Whether a node and everything in it pass a test. -/
def passes (test : Node → Bool) : Node → Bool
  | .mk content caption profile => test (.mk content caption profile) && contentPasses test content
termination_by structural node => node

def contentPasses (test : Node → Bool) : Content Node → Bool
  | .union branches _ => listPasses test branches
  | .morph input output _ => passes test input && optionPasses test output
  | .intersection basis constraints => optionPasses test basis && listPasses test constraints
  | .required _ value => passes test value
  | .optional _ value => passes test value
  | _ => true
termination_by structural content => content

def listPasses (test : Node → Bool) : List Node → Bool
  | [] => true
  | node :: rest => passes test node && listPasses test rest
termination_by structural nodes => nodes

def optionPasses (test : Node → Bool) : Option Node → Bool
  | none => true
  | some node => passes test node
termination_by structural node => node

end

variable (test : Node → Bool)

theorem listPasses_eq (nodes : List Node) : listPasses test nodes = nodes.all (passes test) := by
  induction nodes with
  | nil => rfl
  | cons node rest ih => rw [listPasses, List.all_cons, ih]

theorem optionPasses_eq (node : Option Node) : optionPasses test node = node.toList.all (passes test) := by
  cases node with
  | none => rfl
  | some node => exact (Bool.and_true _).symm

theorem contentPasses_eq (content : Content Node) :
    contentPasses test content = content.children.all (passes test) := by
  cases content with
  | union branches ordered => exact listPasses_eq test branches
  | morph input output transforms =>
      rw [contentPasses, optionPasses_eq, Content.children, List.all_cons]
  | intersection basis constraints =>
      rw [contentPasses, optionPasses_eq, listPasses_eq, Content.children, List.all_append]
  | required key value => exact (Bool.and_true _).symm
  | optional key value => exact (Bool.and_true _).symm
  | _ => rfl

theorem passes_iff (node : Node) : node.passes test = true ↔ node.Everywhere fun n => test n = true := by
  induction node using induct with
  | step content caption profile ih =>
      rw [passes, Bool.and_eq_true, contentPasses_eq, List.all_eq_true, everywhere_iff]
      exact and_congr_right fun _ => forall₂_congr ih

instance {P : Node → Prop} [DecidablePred P] (node : Node) : Decidable (node.Everywhere P) :=
  decidable_of_iff (node.passes (fun n => decide (P n)) = true) <| by
    rw [passes_iff]
    simp only [decide_eq_true_eq]

instance (node : Node) : Decidable node.Tame :=
  inferInstanceAs (Decidable (node.Everywhere fun n => n.kind ≠ .morph ∧ n.kind ≠ .optional))

instance [Behaviour] (sample : PropKey → Value) : DecidablePred (Content.SampledBy sample)
  | .optional key value => inferInstanceAs (Decidable (value.allows (sample key) = true))
  | .union _ _ | .morph _ _ _ | .intersection _ _ | .unit _ | .proto _ | .domain _ | .divisor _ | .max _ | .min _
  | .pattern _ | .predicate _ | .required _ _ => .isTrue trivial

instance [Behaviour] (sample : PropKey → Value) (node : Node) : Decidable (node.SampledBy sample) :=
  inferInstanceAs (Decidable (node.Everywhere fun n => n.kind ≠ .morph ∧ n.content.SampledBy sample))

end Node

-- ---------------------------------------------------------------------------
-- Outcomes
-- ---------------------------------------------------------------------------

namespace Intersected

def isNode : Intersected → Bool
  | .node _ => true
  | _ => false

def isDisjoint : Intersected → Bool
  | .disjoint _ => true
  | _ => false

theorem isNode_iff {out : Intersected} : out.isNode = true ↔ ∃ n, out = .node n := by
  cases out <;> simp [isNode]

theorem isDisjoint_iff {out : Intersected} : out.isDisjoint = true ↔ ∃ d, out = .disjoint d := by
  cases out <;> simp [isDisjoint]

end Intersected

/-- Whether a node is an optional property with a tame value under a key. -/
def Node.isTameOptional (key : PropKey) (node : Node) : Bool :=
  match node.content with
  | .optional key' value => decide (key' = key) && decide value.Tame
  | _ => false

theorem Node.isTameOptional_iff {key : PropKey} {node : Node} :
    node.isTameOptional key = true ↔ ∃ value, node.content = .optional key value ∧ value.Tame := by
  unfold isTameOptional
  cases node.content <;> simp

-- ---------------------------------------------------------------------------
-- Everything in a space
-- ---------------------------------------------------------------------------

instance : DecidablePred Content.Exact
  | .intersection _ constraints =>
    inferInstanceAs (Decidable (constraints.Pairwise fun a b => ¬ (a.kind = .divisor ∧ b.kind = .divisor)))
  | .divisor d => inferInstanceAs (Decidable (d ≤ Nat.pow 2 53))
  | .required _ value => inferInstanceAs (Decidable (value.isRefinement = false))
  | .optional _ value => inferInstanceAs (Decidable (value.isRefinement = false))
  | .union _ _ | .morph _ _ _ | .unit _ | .proto _ | .domain _ | .max _ | .min _ | .pattern _ | .predicate _ =>
    .isTrue trivial

namespace Space

theorem holds_iff {space : Space} {node : Node} : space.Holds node ↔ node ∈ space.entries.filterMap Entry.node := by
  rw [List.mem_filterMap]
  rfl

/-- The least common multiples that were to be formed in a space. -/
def multiples (space : Space) : List Nat :=
  space.trace.filterMap fun event => match event with
    | .multiple n => some n
    | _ => none

theorem regular_iff {space : Space} : space.Regular ↔
    (∀ node ∈ space.entries.filterMap Entry.node, node.content.Exact) ∧ ∀ n ∈ space.multiples, n ≤ Nat.pow 2 53 := by
  have hmultiple (n : Nat) : n ∈ space.multiples ↔ Event.multiple n ∈ space.trace := by
    rw [multiples, List.mem_filterMap]
    constructor
    · rintro ⟨event, hevent, heq⟩
      cases event with
      | multiple m => cases heq; exact hevent
      | branches nodes => cases heq
      | covering nodes => cases heq
    · exact fun h => ⟨_, h, rfl⟩
  simp only [← holds_iff, hmultiple]
  exact ⟨fun h => ⟨h.exact, h.multiples⟩, fun h => ⟨h.1, h.2⟩⟩

instance (space : Space) : Decidable space.Regular := decidable_of_iff _ regular_iff.symm

end Space

end SchemaAlgebra
