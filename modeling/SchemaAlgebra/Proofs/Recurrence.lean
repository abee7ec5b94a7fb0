-- SUMMARY: Conjoining the two nodes that a conflict records is refused for a conflict of the same kind.
import SchemaAlgebra.Proofs.Congruence
import SchemaAlgebra.Proofs.Exclusion
import SchemaAlgebra.Stock

/-!
# Recurrence

The evidence in a conflict can be checked: the two nodes that it records are conjoined
on their own, in the state that the space is left in or in a later one, and are refused
for a conflict of the same kind. Most conflicts depend on nothing but the two nodes. That
no branches of two unions intersect was found in an earlier state and to another depth,
and neither makes a difference in regular spaces. The order in which the two unions were
given makes none if they have no morphs; if they have any, they are only known to conflict
in the order in which their conflict was found, and it is turned round where operands were
swapped above them.
-/

namespace SchemaAlgebra

namespace SpaceM

variable {α β : Type}

/-- A computation that is never refused for a conflict. -/
def Mild (x : SpaceM α) : Prop := ∀ (space : Space) (d : Disjoint), (x.exec space).1 ≠ .error (.unsatisfiable d)

theorem Mild.bind {x : SpaceM α} {f : α → SpaceM β} (hx : x.Mild) (hf : ∀ a, (f a).Mild) : (x >>= f).Mild := by
  intro space d
  have hx := hx space d
  rw [exec_bind]
  generalize x.exec space = first at hx ⊢
  rcases first with ⟨error | a, later⟩
  · exact fun heq => hx (congrArg Except.error (Except.error.inj heq))
  · exact hf a later d

/-- Conflicts are results, and no errors, of everything that is put together from simple steps. -/
theorem Compositional.mild : Compositional Mild where
  pure _ _ _ := nofun
  throw error h space d heq := by
    cases Except.error.inj heq
    cases h
  bind := .bind
  look _ hf space d := hf space space d
  note _ _ _ := nofun
  intern _ _ _ _ _ := nofun

end SpaceM

/-- The conflict that an outcome is, if it is one. -/
def Intersected.conflict? : Intersected → Option Disjoint
  | .disjoint d => some d
  | _ => none

theorem Intersected.conflict?_eq_some {out : Intersected} {d : Disjoint} : out.conflict? = some d ↔ out = .disjoint d := by
  cases out <;> simp [conflict?]

namespace Node

open Space (Twins Abreast)

variable [Behaviour] {space later final : Space} {l r : Node} {kind : DisjointKind}

-- ---------------------------------------------------------------------------
-- Refusals
-- ---------------------------------------------------------------------------

/-- Conjoining two nodes in a space is refused for a conflict of a kind. -/
def Refuted (kind : DisjointKind) (space : Space) (l r : Node) : Prop :=
  ∃ d, ((and l r).exec space).1 = .error (.unsatisfiable d) ∧ d.kind = kind

/-- Whether conjoining two nodes in a space is refused for a conflict. -/
def isRefuted (space : Space) (l r : Node) : Bool :=
  match ((and l r).exec space).1 with
  | .error (.unsatisfiable _) => true
  | _ => false

theorem Refuted.isRefuted (h : Refuted kind space l r) : isRefuted space l r = true := by
  obtain ⟨d, hd, -⟩ := h
  rw [Node.isRefuted, hd]

theorem exec_conjoin (hvalid : space.Valid) (hr : space.Holds r) :
    (conjoin l r).exec space = (conjoinWithin (Nat.max l.nesting r.nesting + 1) l r).exec space := by
  rw [conjoin, SpaceM.exec_bind, exec_adopt_home (hvalid.home r hr)]
  rfl

/-- Conjunctions end where conjoining does, and are refused for the conflicts that it finds. -/
theorem exec_and (l r : Node) (space : Space) : ((and l r).exec space).2 = ((conjoin l r).exec space).2 ∧
    ∀ d, ((and l r).exec space).1 = .error (.unsatisfiable d) ↔ ((conjoin l r).exec space).1 = .ok (.disjoint d) := by
  have hmild := conjoin_inherits SpaceM.Compositional.mild l r (.inl trivial) space
  rw [and, SpaceM.exec_bind]
  generalize (conjoin l r).exec space = first at hmild
  rcases first with ⟨error | out, after⟩
  · refine ⟨rfl, fun d => ⟨fun h => ?_, nofun⟩⟩
    exact absurd (congrArg Except.error (Except.error.inj h)) (hmild d)
  · cases out with
    | node n => exact ⟨rfl, fun d => ⟨nofun, nofun⟩⟩
    | disjoint d' =>
        refine ⟨rfl, fun d => ⟨fun h => ?_, fun h => ?_⟩⟩
        · rw [SchemaError.unsatisfiable.inj (Except.error.inj h)]
        · rw [Intersected.disjoint.inj (Except.ok.inj h)]
          rfl
    | orthogonal => exact ⟨rfl, fun d => ⟨nofun, nofun⟩⟩

theorem refuted_of_conjoin {d : Disjoint} (h : ((conjoin l r).exec space).1 = .ok (.disjoint d)) :
    Refuted d.kind space l r :=
  ⟨d, ((exec_and l r space).2 d).mpr h, rfl⟩

/-- Nodes that conflict for good conflict in any space. -/
theorem Opposes.refuted (h : Opposes kind l r) (hvalid : space.Valid) (hr : space.Holds r) : Refuted kind space l r := by
  obtain ⟨d, hconjoin, rfl⟩ := h (conjoinWithin (Nat.max l.nesting r.nesting))
  refine refuted_of_conjoin ?_
  rw [exec_conjoin hvalid hr, conjoinWithin, hconjoin]
  rfl

-- ---------------------------------------------------------------------------
-- Unions
-- ---------------------------------------------------------------------------

/-- On the way to a space, conjoining two nodes found a conflict of a kind. -/
def Clashed (kind : DisjointKind) (later : Space) (l r : Node) : Prop :=
  ∃ (depth : Nat) (start : Space) (d : Disjoint), start.Valid ∧ later.Extends ((conjoinWithin depth l r).exec start).2 ∧
    ((conjoinWithin depth l r).exec start).1 = .ok (.disjoint d) ∧ d.kind = kind

/-- A conflict that a rule finds is the outcome of conjoining. -/
theorem exec_conjoinBy {meet rule : Meet} {d : Disjoint} (h : ((meetBy rule l r).exec space).1 = .ok (.disjoint d)) :
    (conjoinBy meet rule l r).exec space = (.ok (.disjoint d), ((meetBy rule l r).exec space).2) := by
  rw [conjoinBy, SpaceM.exec_bind]
  generalize (meetBy rule l r).exec space = first at h
  obtain ⟨out, after⟩ := first
  obtain rfl : out = .ok (.disjoint d) := h
  rfl

/-- The run in which it was found that no branches intersect. -/
theorem Parted.run (h : Parted later l r) : ∃ (depth : Nat) (start : Space), start.Valid ∧ l.Within False depth start ∧
    r.Within False depth start ∧ later.Extends ((conjoinWithin depth l r).exec start).2 ∧
      ((conjoinWithin depth l r).exec start).1 = .ok (.disjoint (.between .union l r)) := by
  obtain ⟨hunion, hdiffer, depth, start, hvalid, hl, hr, hlater, hfound⟩ := h
  have horder : l.kind.order ≤ r.kind.order := by
    rw [hunion]
    exact Nat.zero_le _
  rw [← @meetBy_forth l r (meetUnions (conjoinWithin depth)) hdiffer horder] at hlater hfound
  have hexec := @exec_conjoinBy _ start l r (conjoinWithin depth) _ _ hfound
  exact ⟨depth + 1, start, hvalid, hl, hr, by rwa [conjoinWithin, hexec], by rw [conjoinWithin, hexec]⟩

theorem Parted.forth (h : Parted later l r) : Clashed .union later l r := by
  obtain ⟨depth, start, hvalid, -, -, hlater, hfound⟩ := h.run
  exact ⟨depth, start, _, hvalid, hlater, hfound, rfl⟩

theorem Parted.back (h : Parted later l r) (hother : r.kind ≠ .union) : Clashed .union later r l := by
  obtain ⟨hunion, hdiffer, depth, start, hvalid, -, -, hlater, hfound⟩ := h
  have hexec : (meetBy (meetUnions (conjoinWithin depth)) r l).exec start =
      (.ok (.disjoint (Disjoint.between .union l r).invert),
        ((meetUnions (conjoinWithin depth) l r).exec start).2) := by
    rw [meetBy_back hdiffer (order_lt_of_union hunion hother), SpaceM.exec_bind]
    generalize (meetUnions (conjoinWithin depth) l r).exec start = first at hfound
    obtain ⟨out, after⟩ := first
    obtain rfl : out = _ := hfound
    rfl
  have hexec' := @exec_conjoinBy _ start r l (conjoinWithin depth) _ _ (congrArg Prod.fst hexec)
  rw [hexec] at hexec'
  exact ⟨depth + 1, start, _, hvalid, by rwa [conjoinWithin, hexec'], by rw [conjoinWithin, hexec'], rfl⟩

/-- A conflict that was found on the way to a regular space is found again in a later state: to any depth that is enough
the run is the same, and runs in two states keep in step. -/
theorem Clashed.refuted (h : Clashed kind final l r) (hblind : BlindToSign) (hfinal : final.Valid)
    (hregular : final.Regular) (hl : final.Holds l) (hr : final.Holds r) (hlater : later.Valid)
    (hsucceeds : later.Succeeds final) (hl' : later.Holds l) (hr' : later.Holds r)
    (hregular' : ((and l r).exec later).2.Regular) : Refuted kind later l r := by
  obtain ⟨depth, start, d, hstart, hext, hfound, rfl⟩ := h
  rw [(exec_and l r later).1] at hregular'
  have hrun := @conjoin_always _ False later l r hl' (.inl hr') later hlater (.refl later)
  have hsane := hrun.sane hregular'
  have hright := hrun.valid
  have hextension := hrun.extension
  rw [exec_conjoin hlater hr'] at hregular' hsane hright hextension
  -- Both runs are brought to one depth.
  obtain ⟨enough, hle, hle'⟩ : ∃ enough, depth ≤ enough ∧ Nat.max l.nesting r.nesting + 1 ≤ enough :=
    ⟨_, Nat.le_max_left _ _, Nat.le_max_right _ _⟩
  have hfirst : (conjoinWithin enough l r).exec start = (conjoinWithin depth l r).exec start :=
    (conjoinWithin_deepens hle l r).exec_eq fun reason => by rw [hfound]; nofun
  have hsecond := (conjoinWithin_deepens hle' l r).exec_eq hsane
  rw [← hfirst] at hext hfound
  rw [← hsecond] at hregular' hright hextension
  have habreast : Abreast final ((conjoinWithin enough l r).exec later).2 :=
    ⟨hfinal, hright, hregular, hregular', hextension.registry.trans hsucceeds.registry,
      by rw [hextension.config, hsucceeds.config]⟩
  have hstep := ((conjoinWithin_steady habreast hblind enough).agree ⟨hl, hextension.holds l hl', rfl⟩
    ⟨hr, hextension.holds r hr', rfl⟩).agree start later hstart.tidy hlater.tidy hext (.refl _)
  rw [hfound] at hstep
  obtain ⟨d', hd', hkind⟩ : ∃ d', ((conjoinWithin enough l r).exec later).1 = .ok (.disjoint d') ∧ d.kind = d'.kind := by
    generalize ((conjoinWithin enough l r).exec later).1 = out at hstep
    cases hstep with
    | ok h => cases h with
      | disjoint h => exact ⟨_, rfl, h.kind⟩
  rw [hkind]
  refine refuted_of_conjoin ?_
  rw [exec_conjoin hlater hr', ← hsecond]
  exact hd'

-- ---------------------------------------------------------------------------
-- Unions without morphs
-- ---------------------------------------------------------------------------

/-- Unions without morphs are in the way of no result. -/
theorem within_of_plain_union (hvalid : space.Valid) (hl : space.Holds l) (hunion : l.kind = .union)
    (hmorph : l.includesMorph = false) {depth : Nat} (hshallow : space.Regular → l.nesting < depth) :
    l.Within .success depth space := by
  have hcalm : l.Calm False depth space := ⟨hl, hshallow, False.elim⟩
  exact hcalm.plain hvalid (fun _ => by rw [isRefinement, hunion]; rfl) hmorph

/-- Either both have branches or neither has. -/
theorem Parted.isEmpty_eq (h : Parted later l r) : l.branches.1.isEmpty = r.branches.1.isEmpty := by
  by_contra hne
  obtain ⟨hunion, -, depth, start, -, -, -, -, hfound⟩ := h
  rw [meetUnions_presence hunion hne] at hfound
  cases hfound

/-- Unions without morphs that were found to have no branches that intersect exclude each other. -/
theorem Parted.excludes (h : Parted later l r) (hregular : later.Regular) (hunion : r.kind = .union)
    (hmorph : l.includesMorph = false) (hmorph' : r.includesMorph = false) :
    ∃ depth, ∀ enough, depth ≤ enough → Excludes enough l r := by
  obtain ⟨depth, start, hvalid, hl, hr, hlater, hfound⟩ := h.run
  refine ⟨depth, fun enough hle => ?_⟩
  have hrun := (conjoinWithin_deepens hle l r).exec_eq fun reason => by rw [hfound]; nofun
  rw [← hrun] at hlater hfound
  have hwithin := within_of_plain_union hvalid hl.holds h.isUnion hmorph fun hregular => (hl.shallow hregular).trans_le hle
  have hwithin' := within_of_plain_union hvalid hr.holds hunion hmorph' fun hregular => (hr.shallow hregular).trans_le hle
  exact (conjoinWithin_decides enough start l r hvalid hwithin hwithin' _ hfound (hregular.earlier hlater)).mp ⟨_, rfl⟩

/-- If both have branches or neither has, a conflict between unions is that no branches intersect. -/
theorem conjoinWithin_union {depth : Nat} (hvalid : space.Valid) (hl : l.Within .success (depth + 1) space)
    (hr : r.Within .success (depth + 1) space) (hunion : l.kind = .union) (hne : l.sameType r = false)
    (hempty : l.branches.1.isEmpty = r.branches.1.isEmpty) :
    SpaceM.Results space (conjoinWithin (depth + 1) l r) fun _ out => ∀ d, out = .disjoint d → d.kind = .union := by
  have horder : l.kind.order ≤ r.kind.order := by
    rw [hunion]
    exact Nat.zero_le _
  have hspec := @conjoinWithin_spec _ False .success False.elim depth
  rw [conjoinWithin, conjoinBy, meetBy_forth hne horder]
  refine ((meetUnions_met hspec False.elim space l r hvalid hl hr (Nat.zero_le _) horder hne).results.and
    (meetUnions_results hunion)).bind ?_
  rintro later out ⟨⟨-, hmet⟩, hout⟩
  cases out with
  | node n => exact .pure fun d hd => by cases hd
  | disjoint d =>
      refine .pure ?_
      rintro _ ⟨⟩
      rcases hout d rfl with ⟨hpresence, -⟩ | rfl
      · exact absurd hempty hpresence
      · rfl
  | orthogonal => cases hunion ▸ hmet.1.1

/-- Unions without morphs conflict in the other order as well. -/
theorem Parted.swapped (h : Parted final r l) (hregular : final.Regular) (hunion : l.kind = .union)
    (hmorph : l.includesMorph = false) (hmorph' : r.includesMorph = false) (hlater : later.Valid) (hl : later.Holds l)
    (hr : later.Holds r) (hregular' : ((and l r).exec later).2.Regular) : Refuted .union later l r := by
  obtain ⟨depth, hexcludes⟩ := h.excludes hregular hunion hmorph' hmorph
  rw [(exec_and l r later).1, exec_conjoin hlater hr] at hregular'
  -- Conjoining gives a result; to a depth at which the unions exclude each other it is the same.
  obtain ⟨enough, hle, hle'⟩ : ∃ enough, depth ≤ enough + 1 ∧ Nat.max l.nesting r.nesting + 1 ≤ enough + 1 :=
    ⟨Nat.max depth (Nat.max l.nesting r.nesting), (Nat.le_max_left _ _).trans (Nat.le_succ _),
      Nat.succ_le_succ (Nat.le_max_right _ _)⟩
  have hreach {n : Nat} (hn : Nat.max l.nesting r.nesting + 1 ≤ n) :
      l.Within .success n later ∧ r.Within .success n later :=
    ⟨within_of_plain_union hlater hl hunion hmorph fun _ => (Nat.lt_succ_of_le (Nat.le_max_left _ _)).trans_le hn,
      within_of_plain_union hlater hr h.isUnion hmorph' fun _ =>
        (Nat.lt_succ_of_le (Nat.le_max_right _ _)).trans_le hn⟩
  obtain ⟨hshallow, hshallow'⟩ := hreach le_rfl
  obtain ⟨hwithin, hwithin'⟩ := hreach hle'
  obtain ⟨out, hout⟩ := (@conjoinWithin_spec _ False .success False.elim _ later l r hlater hshallow hshallow').succeeds
    trivial hregular'
  have hrun := (conjoinWithin_deepens hle' l r).exec_eq fun reason => by rw [hout]; nofun
  rw [← hrun] at hregular' hout
  have hback := (hexcludes (enough + 1) hle).symm hlater hr hl
  obtain ⟨d, rfl⟩ := (conjoinWithin_decides (enough + 1) later l r hlater hwithin hwithin' out hout hregular').mpr hback
  have hdiffer : l.sameType r = false := (sameType_comm l r).trans h.differ
  have hkind := conjoinWithin_union hlater hwithin hwithin' hunion hdiffer h.isEmpty_eq.symm _ hout d rfl
  rw [← hkind]
  refine refuted_of_conjoin ?_
  rw [exec_conjoin hlater hr, ← hrun]
  exact hout

end Node

-- ---------------------------------------------------------------------------
-- Recurrence
-- ---------------------------------------------------------------------------

/-- What a conflict records can be held against it: both nodes are alive in a space, and conjoining them in any later state
where they still are is refused for a conflict of the same kind. Two unions of which one has a morph may conflict in one of
the two orders only. -/
structure Disjoint.Genuine [Behaviour] (space : Space) (d : Disjoint) : Prop where
  left : space.Holds d.l
  right : space.Holds d.r
  recurs : d.kind ≠ .union → ∀ later : Space, later.Reachable True → later.Holds d.l → later.Holds d.r →
    Node.Refuted d.kind later d.l d.r
  unions : d.kind = .union → BlindToSign → space.Regular → ∀ later : Space, later.Reachable True →
    later.Succeeds space → later.Holds d.l → later.Holds d.r →
      (((Node.and d.l d.r).exec later).2.Regular → Node.Refuted .union later d.l d.r) ∨
        ((d.l.kind = .union ∧ d.r.kind = .union) ∧ (d.l.includesMorph = true ∨ d.r.includesMorph = true)) ∧
          (((Node.and d.r d.l).exec later).2.Regular → Node.Refuted .union later d.r d.l)

theorem Disjoint.Evident.genuine [Behaviour] {space : Space} {d : Disjoint} (h : d.Evident space) (hvalid : space.Valid) :
    d.Genuine space where
  left := h.left
  right := h.right
  recurs := fun hkind _ hlater _ hr => (h.opposed hkind).forth.refuted hlater.valid hr
  unions := by
    intro hkind hblind hregular later hlater hsucceeds hl hr
    have hrefuted (hclashed : Node.Clashed .union space d.l d.r) :=
      hclashed.refuted hblind hvalid hregular h.left h.right hlater.valid hsucceeds hl hr
    rcases h.parted hkind with hparted | hparted
    · exact .inl (hrefuted hparted.forth)
    by_cases hunion : d.l.kind = .union
    · by_cases hmorph : d.l.includesMorph = true ∨ d.r.includesMorph = true
      · exact .inr ⟨⟨⟨hunion, hparted.isUnion⟩, hmorph⟩,
          hparted.forth.refuted hblind hvalid hregular h.right h.left hlater.valid hsucceeds hr hl⟩
      · rw [not_or, Bool.not_eq_true, Bool.not_eq_true] at hmorph
        exact .inl (hparted.swapped hregular hunion hmorph.1 hmorph.2 hlater.valid hl hr)
    · exact .inl (hrefuted (hparted.back hunion))

namespace Node

variable [Behaviour] {space : Space} {l r : Node}

theorem intersect_founded (hvalid : space.Valid) (hl : space.Holds l) (hr : Welcome False space r) :
    SpaceM.Results space (intersect l r) Founded := by
  refine (adopt_always hr space hvalid (.refl space)).results.bind ?_
  rintro later adopted ⟨⟨hvalid', hext⟩, hadopted, -⟩
  obtain ⟨hlWithin, hrWithin⟩ := @within_pair _ _ False l adopted (hext.holds l hl) hadopted False.elim
  have hrule := meetUnions_founded _ (conjoinWithin_founded (Nat.max l.nesting adopted.nesting))
  exact meetBy_founded (hrule later l adopted hvalid' hlWithin hrWithin (Nat.zero_le _))
    (hrule later adopted l hvalid' hrWithin hlWithin (Nat.zero_le _))

theorem conjoin_founded (hvalid : space.Valid) (hl : space.Holds l) (hr : Welcome False space r) :
    SpaceM.Results space (conjoin l r) Founded := by
  refine (adopt_always hr space hvalid (.refl space)).results.bind ?_
  rintro later adopted ⟨⟨hvalid', hext⟩, hadopted, -⟩
  obtain ⟨hlWithin, hrWithin⟩ := @within_pair _ _ False l adopted (hext.holds l hl) hadopted False.elim
  exact conjoinWithin_founded _ later l adopted hvalid' hlWithin hrWithin

/-- Every conflict between two nodes, and every one that a conjunction is refused for, is genuine, wherever in the nodes it
was found. -/
theorem conflicts_genuine (hspace : space.Reachable True) (hl : space.Holds l) (hr : Welcome False space r) {d : Disjoint} :
    (((intersect l r).exec space).1 = .ok (.disjoint d) → d.Genuine ((intersect l r).exec space).2) ∧
      (((and l r).exec space).1 = .error (.unsatisfiable d) → d.Genuine ((and l r).exec space).2) := by
  have hvalid := hspace.valid
  constructor
  · intro h
    exact (intersect_founded hvalid hl hr _ h d rfl).genuine (intersect_always hl hr space hvalid (.refl space)).valid
  · intro h
    have hend := (exec_and l r space).1
    have hconjoin := ((exec_and l r space).2 d).mp h
    rw [hend]
    exact (conjoin_founded hvalid hl hr _ hconjoin d rfl).genuine (conjoin_always hl hr space hvalid (.refl space)).valid

omit [Behaviour] in
/-- Objects whose entries are texts or numbers and objects whose entries are large integers or symbols conflict in what
the entries are, and so do the entries on their own. -/
theorem entries_conflict : ∃ (space : Space) (l r : Node) (d : Disjoint), @Space.Reachable Stock.behaviour True space ∧
    space.Holds l ∧ Welcome False space r ∧ ((@intersect Stock.behaviour l r).exec space).1 = .ok (.disjoint d) ∧
      d.kind = .union ∧ d.path = [.string "entries"] ∧
        @Refuted Stock.behaviour .union ((@intersect Stock.behaviour l r).exec space).2 d.l d.r := by
  let _ := Stock.behaviour
  let holding (first second : String) : Definition := .map [("domain", .string "object"),
    ("required", .map [("key", .string "entries"),
      ("value", .map [("branches", .list [.string first, .string second]), ("ordered", .bool true)])])]
  let texts := holding "string" "number"
  let symbols := holding "bigint" "symbol"
  let program : SpaceM Bool := do
    let l ← texts.readRoot
    let r ← symbols.readRoot
    let out ← intersect l r
    let space ← get
    return out.conflict?.any fun d => decide ((d.kind = .union ∧ d.path = [.string "entries"]) ∧
      (d.l.includesMorph = false ∧ d.r.includesMorph = false) ∧ space.Regular ∧ ((and d.l d.r).exec space).2.Regular)
  have hyields : program.yields (.new 0 .standard) (fun b => b) = true := by
    decide +kernel
  obtain ⟨l, hl, hyields⟩ := SpaceM.yields_bind.mp hyields
  obtain ⟨r, hr, hyields⟩ := SpaceM.yields_bind.mp hyields
  obtain ⟨out, hout, hyields⟩ := SpaceM.yields_bind.mp hyields
  rw [SpaceM.yields_get, SpaceM.yields_pure, Option.any_eq_true] at hyields
  obtain ⟨d, hconflict, hyields⟩ := hyields
  obtain ⟨⟨hkind, hpath⟩, ⟨hmorph, hmorph'⟩, hregular, hregular'⟩ := of_decide_eq_true hyields
  rw [Intersected.conflict?_eq_some.mp hconflict] at hout
  obtain ⟨hspace, hlHeld, hrHeld⟩ := (@Space.Reachable.new _ True 0 .standard).read_both rfl rfl hl hr
  have hgenuine := (conflicts_genuine hspace hlHeld (.inl hrHeld)).1 hout
  have hrun : (Request.intersect l r).run = (do let _ ← intersect l r) := rfl
  obtain ⟨hlater, -⟩ :=
    hspace.after hrun (List.forall_mem_singleton.mpr hlHeld) (List.forall_mem_singleton.mpr hrHeld)
  refine ⟨_, l, r, d, hspace, hlHeld, .inl hrHeld, hout, hkind, hpath, ?_⟩
  rcases hgenuine.unions hkind Stock.blindToSign hregular _ hlater (.refl _) hgenuine.left hgenuine.right with
    hrefuted | ⟨⟨-, hmorphs⟩, -⟩
  · exact hrefuted hregular'
  · rw [hmorph, hmorph'] at hmorphs
    rcases hmorphs with h | h <;> cases h

omit [Behaviour] in
/-- A conflict between unions with morphs that was turned round: conjoining the two in the order in which it records them
finds that morphs do not intersect, which is no conflict. -/
theorem turned_conflict_lost : ∃ (space : Space) (l r : Node) (d : Disjoint), @Space.Reachable Stock.behaviour True space ∧
    space.Holds l ∧ space.Holds r ∧ ((@intersect Stock.behaviour l r).exec space).1 = .ok (.disjoint d) ∧
      d.kind = .union ∧ ((@intersect Stock.behaviour l r).exec space).2.Regular ∧
        ∀ kind, ¬ @Refuted Stock.behaviour kind ((@intersect Stock.behaviour l r).exec space).2 d.l d.r := by
  let _ := Stock.behaviour
  let ordered (branches : List Definition) : Definition := .map [("branches", .list branches), ("ordered", .bool true)]
  let requiring (key : String) (value : Definition) : Definition := .map [("key", .string key), ("value", value)]
  let object (property : Definition) : Definition := .map [("domain", .string "object"), ("required", property)]
  let counting (input : Definition) : Definition := .map [("in", input), ("morph", .transform ⟨0, none, "length"⟩)]
  let counting' (input output : Definition) : Definition :=
    .map [("in", input), ("morph", .transform ⟨0, none, "length"⟩), ("out", output)]
  let textFirst := counting (object (requiring "a" (ordered [.string "string", .string "number"])))
  let numberFirst := counting (object (requiring "a" (ordered [.string "number", .string "string"])))
  let trimming : Definition := .map [("in", .string "object"), ("morph", .transform ⟨1, none, "trim"⟩)]
  let held := ordered [.string "symbol",
    counting' (object (requiring "p" (ordered [numberFirst, trimming]))) (.string "number")]
  let held' := ordered [.string "bigint",
    counting' (object (requiring "p" (ordered [.string "bigint", textFirst]))) (.string "string")]
  let program : SpaceM Bool := do
    let l ← (requiring "k" held).readKind .required
    let r ← (object (requiring "k" held')).readRoot
    let out ← intersect l r
    let space ← get
    return out.conflict?.any fun d => decide (d.kind = .union ∧ space.Regular ∧ isRefuted space d.l d.r = false)
  have hyields : program.yields (.new 0 .standard) (fun b => b) = true := by
    decide +kernel
  obtain ⟨l, hl, hyields⟩ := SpaceM.yields_bind.mp hyields
  obtain ⟨r, hr, hyields⟩ := SpaceM.yields_bind.mp hyields
  obtain ⟨out, hout, hyields⟩ := SpaceM.yields_bind.mp hyields
  rw [SpaceM.yields_get, SpaceM.yields_pure, Option.any_eq_true] at hyields
  obtain ⟨d, hconflict, hyields⟩ := hyields
  obtain ⟨hkind, hregular, hrefuted⟩ := of_decide_eq_true hyields
  rw [Intersected.conflict?_eq_some.mp hconflict] at hout
  have hnodes : (requiring "k" held).nodes.isEmpty ∧ (object (requiring "k" held')).nodes.isEmpty := by
    decide +kernel
  rw [List.isEmpty_iff, List.isEmpty_iff] at hnodes
  obtain ⟨hfirst, -, hholds⟩ := @Space.Reachable.readKind _ _ True (.new 0 .standard) .required (requiring "k" held)
    (hnodes.1 ▸ List.forall_mem_nil _)
  obtain ⟨hsecond, hext, hholds'⟩ := hfirst.read (d := object (requiring "k" held')) (hnodes.2 ▸ List.forall_mem_nil _)
  exact ⟨_, l, r, d, hsecond, hext.holds l (hholds l hl), hholds' r hr, hout, hkind, hregular,
    fun kind h => Bool.false_ne_true (hrefuted.symm.trans h.isRefuted)⟩

end Node

end SchemaAlgebra
