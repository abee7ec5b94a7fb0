-- SUMMARY: The order that a definition is written in does not matter, unless a reference is to what comes after it.
import SchemaAlgebra.Proofs.Rereading

/-!
# The order of writing

The entries of a map can be written in any order, and so can patterns, predicates and
properties of different keys: what is read is of one type, or nothing is read in either
order. It does not matter which order is the first, since being the same in another
order goes both ways (`Rearranged.symm`).

Only references depend on what came before them. What they stand for may be registered
while a definition is read, so that a definition can be refused which is accepted in
another order, later on or with the reference at the end. And predicates must not tell
`0` from `-0`: one node stands for both, which is that of the value that came first.
-/

namespace SchemaAlgebra

namespace Definition

open Node (Welcome)

variable [Behaviour] {space later : Space} {d d' : Definition}

/-- A definition that was read is read in another order in any later state of the space, as a node of the same type. What
is read in the other order was read before, unless a text in the definition has come to stand for something that it did
not stand for when the definition was refused. -/
theorem readRoot_rearranged (hblind : BlindToSign) (hspace : space.Reachable True) (hlater : later.Reachable True)
    (hrearranged : Rearranged ((readRoot d').exec later).2 d d')
    (hguests : ∀ m ∈ d.nodes, Welcome False space m ∧ Welcome False later m)
    (hcontinues : later.Continues ((readRoot d).exec space).2) (hregular : ((readRoot d).exec space).2.Regular)
    (hregular' : ((readRoot d').exec later).2.Regular) :
    (∀ n, ((readRoot d).exec space).1 = .ok n → ∃ n', ((readRoot d').exec later).1 = .ok n' ∧ n.OfOneType n') ∧
      ∀ n', ((readRoot d').exec later).1 = .ok n' →
        (∃ n, ((readRoot d).exec space).1 = .ok n ∧ n.OfOneType n') ∨
          ∃ text ∈ d.texts, (((readRoot d').exec later).2.registry.resolve? text).isSome = true ∧
            ((readRoot d).exec space).2.registry.resolve? text = none := by
  have hfirst := readRoot_spec d fun m hm => (hguests m hm).1
  have hsecond := readRoot_spec d' fun m hm => (hguests m (hrearranged.mem_nodes hm)).2
  have hext := (hfirst space hspace.valid (.refl space)).extension
  have hext' := (hsecond later hlater.valid (.refl later)).extension
  have habreast := Node.abreast_of_runs hspace.valid hlater.valid hfirst hsecond hcontinues.succeeds hregular hregular'
  have hnumber : later.number = space.number := hcontinues.number.trans hext.number
  have hsides := hext'.number.trans (hnumber.trans hext.number.symm)
  have hfinal := (readRoot_inherits .proceeds d' later hlater.orderly).2.registry.trans hcontinues.registry
  have hshared (m : Node) (hm : m ∈ d.nodes) :=
    shared_of_welcome hspace.valid hext hext' hnumber (hguests m hm).1 (hguests m hm).2
  have hrereads : Rereads (· ∈ d.texts) _ _ _ d := rereads habreast hblind hsides hfinal d hshared fun _ htext => htext
  have hechoes := hrereads.root d' hrearranged
  constructor
  · intro n hn
    obtain ⟨n', hn', htwins⟩ := hechoes.recalls space later n hspace.orderly hlater.orderly (.refl _) (.refl _)
      hcontinues.registry hn
    exact ⟨n', hn', htwins.typeId⟩
  · intro n' hn'
    have hrecalled := hechoes.back later space n' hlater.orderly hspace.orderly (.refl _) (.refl _)
      (.inr hcontinues.registry) hn'
    generalize ((readRoot d).exec space).1 = out at hrecalled ⊢
    cases hrecalled with
    | ok htwins => exact .inl ⟨_, rfl, htwins.typeId⟩
    | refused hunresolved => exact .inr hunresolved

omit [Behaviour] in
/-- An object with two properties and two predicates that it satisfies, and the same in another order throughout: both are
read as nodes of one type. -/
theorem object_in_any_order : ∃ (space : Space) (d d' : Definition) (n n' : Node),
    @Space.Reachable Stock.behaviour True space ∧ d ≠ d' ∧
      Rearranged ((@readRoot Stock.behaviour d').exec ((@readRoot Stock.behaviour d).exec space).2).2 d d' ∧
      ((@readRoot Stock.behaviour d).exec space).1 = .ok n ∧
      ((@readRoot Stock.behaviour d').exec ((@readRoot Stock.behaviour d).exec space).2).1 = .ok n' ∧
      n.OfOneType n' := by
  let _ := Stock.behaviour
  let object : Value := .object (.plain 6 [(.string "name", .string "Mica"), (.string "age", .number (.ofNat 5))])
  let always : Predicate := ⟨0, none, "true"⟩
  let alike : Predicate := ⟨1, none, "true"⟩
  let name : Definition := .map [("key", .string "name"), ("value", .string "string")]
  let name' : Definition := .map [("value", .string "string"), ("key", .string "name")]
  let age : Definition := .map [("key", .string "age"), ("value", .string "number")]
  let d : Definition := .map
    [("required", .list [name, age]), ("unit", .value object), ("predicate", .list [.predicate always, .predicate alike])]
  let d' : Definition := .map
    [("unit", .value object), ("required", .list [age, name']), ("predicate", .list [.predicate alike, .predicate always])]
  have hrearranged (final : Space) : Rearranged final d d' := by
    have hname : Rearranged final name name' :=
      .map (by decide) (.swap _ _ []) (.cons (.value (.refl _)) (.cons (.value (.refl _)) .nil))
    have hapart : [name, age].Pairwise fun item other => ∀ key, Keyed final item key → ¬ Keyed final other key := by
      simp [Keyed, name, age, readKey, SpaceM.exec_pure]
    refine .map (by decide) (.swap _ _ _) (.cons (.value (.refl _)) (.cons ?_ (.cons ?_ .nil)))
    · exact .items (.inr ⟨by decide, hapart⟩) (.swap _ _ []) (.cons (.refl _) (.cons hname .nil))
    · exact .items (.inl (by decide)) (.swap _ _ []) (.cons (.refl _) (.cons (.refl _) .nil))
  let program : SpaceM Bool := do
    let _ ← readRoot d
    let space ← get
    let _ ← readRoot d'
    let later ← get
    return decide (space.Regular ∧ later.Regular)
  have hyields : program.yields (.new 0 .standard) (fun b => b) = true := by
    decide +kernel
  obtain ⟨n, hn, hyields⟩ := SpaceM.yields_bind.mp hyields
  rw [SpaceM.yields_get] at hyields
  obtain ⟨m, hm, hyields⟩ := SpaceM.yields_bind.mp hyields
  rw [SpaceM.yields_get, SpaceM.yields_pure, decide_eq_true_eq] at hyields
  obtain ⟨hregular, hregular'⟩ := hyields
  have hspace := @Space.Reachable.new _ True 0 .standard
  obtain ⟨hlater, -, -⟩ := hspace.read (d := d) (List.forall_mem_nil _)
  obtain ⟨n', hn', htype⟩ := (readRoot_rearranged Stock.blindToSign hspace hlater (hrearranged _) (List.forall_mem_nil _)
    (.refl _) hregular hregular').1 n hn
  exact ⟨_, d, d', n, n', hspace, by simp [d, d'], hrearranged _, hn, hn', htype⟩

omit [Behaviour] in
/-- One predicate, written as itself and as the reference that it gets when it is read: with the reference first, that is
refused in a new space, and with the reference last, it is accepted afterwards. -/
theorem reference_first_refused : ∃ (d d' : Definition) (n' : Node),
    (∀ final, Rearranged final d d') ∧
      (∀ n, ((@readRoot Stock.behaviour d).exec (.new 0 .standard)).1 ≠ .ok n) ∧
      ((@readRoot Stock.behaviour d').exec ((@readRoot Stock.behaviour d).exec (.new 0 .standard)).2).1 = .ok n' ∧
      ((@readRoot Stock.behaviour d).exec (.new 0 .standard)).2.Regular ∧
      ((@readRoot Stock.behaviour d').exec ((@readRoot Stock.behaviour d).exec (.new 0 .standard)).2).2.Regular := by
  let _ := Stock.behaviour
  let always : Definition := .predicate ⟨0, none, "true"⟩
  let reference : Definition := .string "$ark.predicate1"
  let d : Definition := .map [("predicate", .list [reference, always])]
  let d' : Definition := .map [("predicate", .list [always, reference])]
  have hrearranged (final : Space) : Rearranged final d d' :=
    .map (by decide) (.refl _) (.cons (.items (.inl (by decide)) (.swap _ _ [])
      (.cons (.refl _) (.cons (.refl _) .nil))) .nil)
  have hrefused : (readRoot d).yields (.new 0 .standard) (fun _ => true) = false ∧
      ((readRoot d).exec (.new 0 .standard)).2.Regular := by
    decide +kernel
  let program : SpaceM Bool := do
    let _ ← readRoot d'
    let later ← get
    return decide later.Regular
  have hyields : program.yields ((readRoot d).exec (.new 0 .standard)).2 (fun b => b) = true := by
    decide +kernel
  obtain ⟨n', hn', hyields⟩ := SpaceM.yields_bind.mp hyields
  rw [SpaceM.yields_get, SpaceM.yields_pure, decide_eq_true_eq] at hyields
  refine ⟨d, d', n', hrearranged, fun n hn => ?_, hn', hrefused.2, hyields⟩
  rw [SpaceM.yields_iff.mpr ⟨n, hn, rfl⟩] at hrefused
  cases hrefused.1

omit [Behaviour] in
/-- An object of which two properties are asked for, one as `0` with a predicate that refuses `-0`, the other as `-0`:
these have one identifier, so that the one that is read first is taken for both. Only in the one order is the definition
accepted. -/
theorem minus_zero_first_refused : ∃ (d d' : Definition) (n : Node),
    (∀ final, Rearranged final d d') ∧
      ((@readRoot Behaviour.refusingMinusZero d).exec (.new 0 .standard)).1 = .ok n ∧
      (∀ n', ((@readRoot Behaviour.refusingMinusZero d').exec (.new 0 .standard)).1 ≠ .ok n') ∧
      (∀ n', ((@readRoot Behaviour.refusingMinusZero d').exec
        (((@readRoot Behaviour.refusingMinusZero d).exec (.new 0 .standard)).2.sweep [])).1 ≠ .ok n') ∧
      ((@readRoot Behaviour.refusingMinusZero d).exec (.new 0 .standard)).2.Regular ∧
      ((@readRoot Behaviour.refusingMinusZero d').exec (.new 0 .standard)).2.Regular ∧
      ((@readRoot Behaviour.refusingMinusZero d').exec
        (((@readRoot Behaviour.refusingMinusZero d).exec (.new 0 .standard)).2.sweep [])).2.Regular := by
  let _ := Behaviour.refusingMinusZero
  let zero : Definition := .map [("unit", .number .zero), ("predicate", .predicate ⟨0, none, "not -0"⟩)]
  let minusZero : Definition := .map [("unit", .number (.ofQuotient true 0 1))]
  let a : Definition := .map [("key", .string "a"), ("value", zero)]
  let b : Definition := .map [("key", .string "b"), ("value", minusZero)]
  let object : Value := .object (.plain 0 [(.string "a", .number .zero), (.string "b", .number .zero)])
  let d : Definition := .map [("unit", .value object), ("required", .list [a, b])]
  let d' : Definition := .map [("unit", .value object), ("required", .list [b, a])]
  have hrearranged (final : Space) : Rearranged final d d' := by
    have hapart : [a, b].Pairwise fun item other => ∀ key, Keyed final item key → ¬ Keyed final other key := by
      simp [Keyed, a, b, readKey, SpaceM.exec_pure]
    refine .map (by decide) (.refl _) (.cons (.value (.refl _)) (.cons ?_ .nil))
    exact .items (.inr ⟨by decide, hapart⟩) (.swap _ _ []) (.cons (.refl _) (.cons (.refl _) .nil))
  let first := (readRoot d).exec (.new 0 .standard)
  have hyields : (readRoot d).yields (.new 0 .standard) (fun _ => true) = true ∧
      (readRoot d').yields (.new 0 .standard) (fun _ => true) = false ∧
      (readRoot d').yields (first.2.sweep []) (fun _ => true) = false ∧ first.2.Regular ∧
      ((readRoot d').exec (.new 0 .standard)).2.Regular ∧ ((readRoot d').exec (first.2.sweep [])).2.Regular := by
    rw [Space.sweep_nil]
    decide +kernel
  obtain ⟨hok, hrefused, hrefused', hregular⟩ := hyields
  obtain ⟨n, hn, -⟩ := SpaceM.yields_iff.mp hok
  have hnone {space : Space} (h : (readRoot d').yields space (fun _ => true) = false) (n' : Node) :
      ((readRoot d').exec space).1 ≠ .ok n' := by
    intro hn'
    rw [SpaceM.yields_iff.mpr ⟨n', hn', rfl⟩] at h
    cases h
  exact ⟨d, d', n, hrearranged, hn, hnone hrefused, hnone hrefused', hregular⟩

omit [Behaviour] in
/-- The order of writing can decide whether a definition is accepted: where a reference comes before what it stands for,
and where predicates tell `0` from `-0`. -/
theorem order_matters :
    (∃ (d d' : Definition) (n' : Node), (∀ final, Rearranged final d d') ∧
      (∀ n, ((@readRoot Stock.behaviour d).exec (.new 0 .standard)).1 ≠ .ok n) ∧
      ((@readRoot Stock.behaviour d').exec ((@readRoot Stock.behaviour d).exec (.new 0 .standard)).2).1 = .ok n' ∧
      ((@readRoot Stock.behaviour d).exec (.new 0 .standard)).2.Regular ∧
      ((@readRoot Stock.behaviour d').exec ((@readRoot Stock.behaviour d).exec (.new 0 .standard)).2).2.Regular) ∧
    ∃ (d d' : Definition) (n : Node), (∀ final, Rearranged final d d') ∧
      ((@readRoot Behaviour.refusingMinusZero d).exec (.new 0 .standard)).1 = .ok n ∧
      (∀ n', ((@readRoot Behaviour.refusingMinusZero d').exec (.new 0 .standard)).1 ≠ .ok n') ∧
      (∀ n', ((@readRoot Behaviour.refusingMinusZero d').exec
        (((@readRoot Behaviour.refusingMinusZero d).exec (.new 0 .standard)).2.sweep [])).1 ≠ .ok n') ∧
      ((@readRoot Behaviour.refusingMinusZero d).exec (.new 0 .standard)).2.Regular ∧
      ((@readRoot Behaviour.refusingMinusZero d').exec (.new 0 .standard)).2.Regular ∧
      ((@readRoot Behaviour.refusingMinusZero d').exec
        (((@readRoot Behaviour.refusingMinusZero d).exec (.new 0 .standard)).2.sweep [])).2.Regular :=
  ⟨reference_first_refused, minus_zero_first_refused⟩

end Definition

end SchemaAlgebra
