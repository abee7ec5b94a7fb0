-- SUMMARY: Conjunctions allow only what both nodes allow, whatever the nodes are, so that extending is subtyping.
import SchemaAlgebra.Proofs.Decision
import SchemaAlgebra.Proofs.Exactness

/-!
# Subtyping

One node extends another if intersecting the two gives the first back. Nothing that
happens on the way lets in a value that one of the two rejects: neither morphs, which
are judged by their input, nor optional properties, nor the branches that a union
drops because others cover them. Nothing is said of the converse: that a node is a
subtype need not be found out.
-/

namespace SchemaAlgebra

open SpaceM (exec_bind)

namespace Node

variable [Behaviour] {space : Space}

/-- A node all of whose values another allows too. -/
def SubtypeOf (l r : Node) : Prop := ∀ v, l.allows v = true → r.allows v = true

/-- The conjunction of a node with itself is the node. -/
theorem exec_conjoin_self {node : Node} (hhome : node.space = space.number) :
    (conjoin node node).exec space = (.ok (.node node), space) := by
  have hself : node.sameType node = true := beq_self_eq_true _
  rw [conjoin, exec_bind, exec_adopt_home hhome]
  dsimp only
  rw [conjoinHere, conjoinWithin, conjoinBy, exec_bind, meetBy, if_pos hself]
  rfl

/-- A conjunction of nodes of a space, of whatever kinds, is a subtype of both, and nodes that extend others are
subtypes of them; a node extends itself. The space is to be regular also after the operation, since multiples may be
formed on the way. -/
theorem extends?_sound {adopting : Prop} (hblind : BlindToSign) (hreachable : space.Reachable adopting) {l r : Node}
    (hl : space.Holds l) (hr : space.Holds r) :
    (∀ n, ((and l r).exec space).1 = .ok n → ((and l r).exec space).2.Regular → n.SubtypeOf l ∧ n.SubtypeOf r) ∧
      (((extends? l r).exec space).1 = .ok true → ((extends? l r).exec space).2.Regular → l.SubtypeOf r) ∧
      ((extends? l l).exec space).1 = .ok true := by
  have hwelcome : Welcome True space r := .inl hr
  refine ⟨fun n hand hregular => ?_, fun hextends hregular => ?_, ?_⟩
  · obtain ⟨adopted, depth, hadopted, hconjunct⟩ :=
      (and_always hl hwelcome space hreachable.valid (.refl space)).result n hand
    rw [hadopted hr] at hconjunct
    have hboth (v : Value) (hv : n.allows v = true) : l.allows v = true ∧ r.allows v = true :=
      Bool.and_eq_true_iff.mp ((hconjunct.allows hblind hregular v).sound hv)
    exact ⟨fun v hv => (hboth v hv).1, fun v hv => (hboth v hv).2⟩
  · obtain ⟨adopted, hadopted, hsubtype⟩ :=
      (extends?_always hl hwelcome space hreachable.valid (.refl space)).result true hextends rfl
    rw [hadopted hr] at hsubtype
    exact hsubtype hblind hregular
  · rw [extends?, exec_bind, exec_conjoin_self (hreachable.valid.home l hl)]
    exact congrArg Except.ok (beq_self_eq_true l.typeId)

omit [Behaviour] in
/-- Trimming short texts extends the union of texts and numbers: a morph is judged by what goes in. -/
theorem morph_extends_union : ∃ (space : Space) (l r n : Node), @Space.Reachable Stock.behaviour False space ∧
    space.Holds l ∧ space.Holds r ∧ l.kind = .morph ∧ r.kind = .union ∧
      ((@and Stock.behaviour l r).exec space).1 = .ok n ∧ ((@and Stock.behaviour l r).exec space).2.Regular ∧
      @SubtypeOf Stock.behaviour n l ∧ @SubtypeOf Stock.behaviour n r ∧
      ((@extends? Stock.behaviour l r).exec space).1 = .ok true ∧
      ((@extends? Stock.behaviour l r).exec space).2.Regular ∧ @SubtypeOf Stock.behaviour l r := by
  let _ := Stock.behaviour
  let shortText : Definition := .map [("basis", .string "string"), ("max", .number (.ofNat 3))]
  let trimming : Definition := .map [("in", shortText), ("morph", .transform ⟨0, none, "trim"⟩)]
  let scalar : Definition :=
    .map [("branches", .list [.string "string", .string "number"]), ("ordered", .bool true)]
  let program : SpaceM Bool := do
    let l ← trimming.readRoot
    let r ← scalar.readRoot
    let space ← get
    return l.kind = .morph && r.kind = .union &&
      (and l r).yields space (fun _ => true) && ((and l r).exec space).2.Regular &&
      (extends? l r).yields space (fun yes => yes) && ((extends? l r).exec space).2.Regular
  have hyields : program.yields (.new 0 .standard) (fun b => b) = true := by
    decide +kernel
  obtain ⟨l, hl, hyields⟩ := SpaceM.yields_bind.mp hyields
  obtain ⟨r, hr, hyields⟩ := SpaceM.yields_bind.mp hyields
  rw [SpaceM.yields_get, SpaceM.yields_pure] at hyields
  simp only [Bool.and_eq_true, decide_eq_true_eq, SpaceM.yields_iff] at hyields
  obtain ⟨⟨⟨⟨⟨hlKind, hrKind⟩, n, hand, -⟩, hregular⟩, yes, hextends, rfl⟩, hregular'⟩ := hyields
  obtain ⟨hreachable, hlHeld, hrHeld⟩ := (@Space.Reachable.new _ False 0 .standard).read_both rfl rfl hl hr
  obtain ⟨hconjunction, hsubtype, -⟩ := extends?_sound Stock.blindToSign hreachable hlHeld hrHeld
  obtain ⟨hleft, hright⟩ := hconjunction n hand hregular
  exact ⟨_, l, r, n, hreachable, hlHeld, hrHeld, hlKind, hrKind, hand, hregular, hleft, hright, hextends, hregular',
    hsubtype hextends hregular'⟩

end Node

end SchemaAlgebra
