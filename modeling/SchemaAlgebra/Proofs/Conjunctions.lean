-- SUMMARY: Intersecting any two nodes: morphs, unions branch by branch, and the recursion through property values.
import SchemaAlgebra.Proofs.Unions

/-!
# Conjunctions

With the specifications of intersections and unions the recursion closes: at
every depth, conjoining two nodes that nest less deeply gives a node that allows
nothing but what both allow. Between roots without morphs and optional properties
it allows all of that, and conflicts are between nodes without a common value.
-/

namespace SchemaAlgebra

namespace Node

open SpaceM (Ensures)

variable [Behaviour] {ground : Prop} {safe : Safety} {depth : Nat} {space : Space} {l r : Node}

-- ---------------------------------------------------------------------------
-- Morphs
-- ---------------------------------------------------------------------------

/-- What may come out of a morph within reach nests one level less deeply. -/
structure Emits (depth : Nat) (space : Space) (output : Option Node) : Prop where
  holds : ∀ o ∈ output, space.Holds o
  shallow : space.Regular → optionNesting output < depth

omit [Behaviour] in
theorem Emits.extends {later : Space} {output : Option Node} (h : Emits depth space output)
    (hext : later.Extends space) : Emits depth later output where
  holds := fun o ho => hext.holds o (h.holds o ho)
  shallow := fun hregular => h.shallow (hregular.earlier hext)

/-- Where `safe` holds there are no morphs, and nothing comes out of them. -/
theorem Emits.within {output : Node} (h : Emits depth space (some output)) (hnone : safe → space.Regular → False) :
    output.Within safe depth space where
  holds := h.holds output rfl
  shallow := h.shallow
  admitted := fun hsafe hregular => (hnone hsafe hregular).elim
  root := fun hsafe hregular => (hnone hsafe hregular).elim

/-- A morph allows what goes in. -/
structure Accepts (safe : Safety) (depth : Nat) (input : Node) (space : Space) (n : Node) : Prop where
  calm : n.Calm safe (depth + 1) space
  kind : n.kind = .morph
  allows : space.Regular → ∀ v, n.allows v = input.allows v

theorem Accepts.root {input n : Node} (h : Accepts safe depth input space n) : n.isRefinement = false := by
  rw [isRefinement, h.kind]
  rfl

theorem createMorph_spec {input : Node} {output : Option Node} {transforms : List Transform} {caption : Caption}
    (hvalid : space.Valid) (hinput : input.Calm safe (depth + 1) space) (houtput : Emits depth space output)
    (hnone : safe → space.Regular → False) :
    Ensures ground safe space (createMorph input output transforms caption) fun later n =>
      Accepts safe depth input later n := by
  unfold createMorph
  split
  · exact Ensures.refuse hvalid hnone
  rename_i hkind
  split
  · exact Ensures.refuse hvalid hnone
  rename_i hroot
  split
  · exact Ensures.refuse hvalid hnone
  rename_i htransforms
  have hsound : (Content.morph input output transforms).Sound := by
    refine ⟨not_not.mp hkind, fun o ho => ?_, fun h => htransforms (List.isEmpty_iff.mpr h)⟩
    rw [Option.mem_def.mp ho, Option.filter_eq_none_iff] at hroot
    simpa using hroot o rfl
  have hchildren : ∀ c ∈ (Content.morph input output transforms).children, space.Holds c :=
    List.forall_mem_cons.mpr ⟨hinput.holds, fun o ho => houtput.holds o (Option.mem_toList.mp ho)⟩
  have hready : (Content.morph input output transforms).Ready ground space caption :=
    ⟨hsound, trivial, hchildren, fun _ _ => trivial⟩
  refine (Ensures.intern hvalid hready).imp ?_
  intro later n hlater hext hinterned
  have hnone' (hsafe : safe) (hregular : later.Regular) := hnone hsafe (hregular.earlier hext)
  have hchildren' := fun c hc => hext.holds c (hchildren c hc)
  refine ⟨?_, ?_, fun hregular v => ?_⟩
  · refine hinterned.calm hlater (fun _ => trivial) hchildren' (fun hsafe hregular => (hnone' hsafe hregular).elim)
      (fun hsafe hregular => (hnone' hsafe hregular).elim) fun hregular => ?_
    have hregular := hregular.earlier hext
    exact Nat.max_lt.mpr ⟨hinput.shallow hregular, Nat.succ_lt_succ (houtput.shallow hregular)⟩
  · exact Content.kind_eq_of_outline hinterned.outline
  · exact (hinterned.means hregular trivial).allows hlater hinterned.holds hchildren' v

theorem meetOutputs_spec {meet : Meet} (hmeet : Conjoins ground safe depth meet) {l r : Option Node}
    (hvalid : space.Valid) (hl : Emits depth space l) (hr : Emits depth space r)
    (hnone : safe → space.Regular → False) :
    Ensures ground safe space (meetOutputs meet l r) fun later out => match out with
      | .ok o => Emits depth later o
      | .error out => out ≠ .orthogonal ∧ ∀ n, out ≠ .node n := by
  unfold meetOutputs
  split
  · rename_i a b
    refine (hmeet space a b hvalid (hl.within hnone) (hr.within hnone)).bind ?_
    intro later out hvalid' _ hout
    cases out with
    | node n =>
        have hout : Conjunct safe depth a b later n := hout
        refine Ensures.pure hvalid' ⟨?_, hout.calm.shallow⟩
        rintro _ ⟨⟩
        exact hout.calm.holds
    | disjoint d => exact Ensures.pure hvalid' ⟨nofun, nofun⟩
    | orthogonal => exact hout.elim
  · exact Ensures.pure hvalid hl
  · exact Ensures.pure hvalid hr

theorem conjoinInputs_spec {meet : Meet} (hmeet : Conjoins ground safe depth meet) (hblind : safe.exact → BlindToSign)
    (hvalid : space.Valid) (hl : l.Within safe (depth + 1) space) (hr : r.Within safe (depth + 1) space)
    (hfirst : 2 ≤ l.kind.order) (hfirst' : 2 ≤ r.kind.order) :
    Ensures ground safe space (conjoinInputs meet l r) fun later out => Conjoined safe (depth + 1) l r later out :=
  conjoinBy_spec hmeet hblind (meetIntersections_met hmeet hblind) hvalid hl hr hfirst hfirst'

/-- What goes into a morph is a root that is no union, and what comes out nests less deeply. -/
theorem morph_ends (hvalid : space.Valid) {node input : Node} {output : Option Node} {transforms : List Transform}
    (h : node.Calm safe (depth + 1) space) (hc : node.content = .morph input output transforms) :
    input.Within safe (depth + 1) space ∧ Emits depth space output ∧ 2 ≤ input.kind.order := by
  have hchildren : node.children = input :: output.toList := by rw [children, hc]; rfl
  have hsound := (hvalid.written node h.holds).sound
  rw [hc] at hsound
  have hkind : 2 ≤ input.kind.order ∧ input.kind.isRefinement = false := by
    rcases hsound.1 with hk | hk
    · rw [hk]
      decide
    · rw [isBasis] at hk
      generalize input.kind = kind at hk
      cases kind <;> first | cases hk; done | decide
  refine ⟨⟨h.child hvalid (by rw [hchildren]; exact List.mem_cons_self), fun _ _ => hkind.2⟩, ⟨?_, ?_⟩, hkind.1⟩
  · intro o ho
    refine hvalid.closed node h.holds o ?_
    rw [hchildren]
    exact List.mem_cons_of_mem _ (Option.mem_toList.mpr ho)
  · intro hregular
    have hnesting := h.shallow hregular
    rw [nesting_eq, hc] at hnesting
    exact Nat.lt_of_succ_lt_succ (Nat.max_lt.mp hnesting).2

omit [Behaviour] in
theorem two_le_order {node : Node} (h : 1 ≤ node.kind.order)
    (hnot : ∀ input output transforms, node.content ≠ .morph input output transforms) : 2 ≤ node.kind.order := by
  have hk : node.kind ≠ .morph := by
    unfold kind
    intro h
    cases hc : node.content with
    | morph input output transforms => exact hnot input output transforms hc
    | _ => rw [hc] at h; cases h
  generalize node.kind = kind at hk h
  cases kind <;> first | exact absurd rfl hk | exact absurd h (by decide) | decide

theorem allows_morph (hvalid : space.Valid) {node input : Node} {output : Option Node} {transforms : List Transform}
    (h : space.Holds node) (hc : node.content = .morph input output transforms) (v : Value) :
    node.allows v = input.allows v := by
  rw [hvalid.allows h, hc]
  rfl

theorem meetMorphs_met {meet : Meet} (hmeet : Conjoins ground safe depth meet) (hblind : safe.exact → BlindToSign) :
    Meets 1 ground safe depth (meetMorphs meet) := by
  intro space l r hvalid hl hr hfirst horder hne
  have hmorph {input : Node} {output : Option Node} {transforms : List Transform}
      (hc : l.content = .morph input output transforms) (hsafe : safe) (hregular : space.Regular) : False := by
    refine hl.not_morph hsafe hregular ?_
    rw [kind, hc]
    rfl
  unfold meetMorphs
  split
  · rename_i input output transforms input' output' transforms' hc hc'
    have hnone := hmorph hc
    obtain ⟨hinput, houtput, hkind⟩ := morph_ends hvalid hl.toCalm hc
    obtain ⟨hinput', houtput', hkind'⟩ := morph_ends hvalid hr.toCalm hc'
    dsimp only
    split
    · exact (Ensures.refuse hvalid hnone).bind fun _ _ _ _ (h : False) => h.elim
    refine (conjoinInputs_spec hmeet hblind hvalid hinput hinput' hkind hkind').bind ?_
    intro later out hvalid' hext hout
    have hnone' (hsafe : safe) (hregular : later.Regular) := hnone hsafe (hregular.earlier hext)
    cases out with
    | node narrowed =>
        have hout : Conjunct safe (depth + 1) input input' later narrowed := hout
        refine (meetOutputs_spec hmeet hvalid' (houtput.extends hext) (houtput'.extends hext) hnone').bind ?_
        intro final out hfinal hext' hout'
        have hnone'' (hsafe : safe) (hregular : final.Regular) := hnone' hsafe (hregular.earlier hext')
        cases out with
        | ok output =>
            refine (createMorph_spec hfinal (hout.calm.extends hext') hout' hnone'').bind ?_
            intro last n hlast hlastExt hn
            refine Ensures.pure hlast ⟨hn.calm, fun _ _ => hn.root, fun hblind hregular v => ?_⟩
            rw [hn.allows hregular, allows_morph hvalid hl.holds hc, allows_morph hvalid hr.holds hc']
            exact hout.allows hblind (hregular.earlier (hlastExt.trans hext')) v
        | error other =>
            refine Ensures.pure hfinal ?_
            cases other with
            | node n => exact absurd rfl (hout'.2 n)
            | disjoint d => exact fun hexact hregular => (hnone'' (safe.succeeds_of_exact hexact) hregular).elim
            | orthogonal => exact absurd rfl hout'.1
    | disjoint d =>
        exact Ensures.pure hvalid' fun hexact hregular => (hnone' (safe.succeeds_of_exact hexact) hregular).elim
    | orthogonal => exact hout.elim
  · rename_i input output transforms hc hnot
    have hnone := hmorph hc
    obtain ⟨hinput, houtput, hkind⟩ := morph_ends hvalid hl.toCalm hc
    have hkind' : 2 ≤ r.kind.order := two_le_order (hfirst.trans horder) hnot
    refine (conjoinInputs_spec hmeet hblind hvalid hinput hr hkind hkind').bind ?_
    intro later out hvalid' hext hout
    have hnone' (hsafe : safe) (hregular : later.Regular) := hnone hsafe (hregular.earlier hext)
    cases out with
    | node narrowed =>
        have hout : Conjunct safe (depth + 1) input r later narrowed := hout
        dsimp only
        split
        · rename_i hsame
          refine Ensures.pure hvalid' ⟨hl.toCalm.extends hext, fun hroot _ => hroot, fun hblind hregular v => ?_⟩
          have heq := hvalid'.allows_eq hregular hout.calm.holds (hext.holds _ hinput.holds) hsame v
          rw [allows_morph hvalid hl.holds hc]
          exact heq ▸ hout.allows hblind hregular v
        · refine (createMorph_spec hvalid' hout.calm (houtput.extends hext) hnone').bind ?_
          intro final n hfinal hext' hn
          refine Ensures.pure hfinal ⟨hn.calm, fun _ _ => hn.root, fun hblind hregular v => ?_⟩
          rw [hn.allows hregular, allows_morph hvalid hl.holds hc]
          exact hout.allows hblind (hregular.earlier hext') v
    | disjoint d =>
        exact Ensures.pure hvalid' fun hexact hregular => (hnone' (safe.succeeds_of_exact hexact) hregular).elim
    | orthogonal => exact hout.elim
  · rename_i hnot _
    exact meetIntersections_met hmeet hblind space l r hvalid hl hr (two_le_order hfirst hnot) horder hne

theorem conjoinBranches_spec {meet : Meet} (hmeet : Conjoins ground safe depth meet) (hblind : safe.exact → BlindToSign) :
    ConjoinsBranches ground safe depth (conjoinBranches meet) := by
  intro space l r hvalid hbranches
  have horder {node : Node} (h : node.kind ≠ .union) : 1 ≤ node.kind.order := by
    generalize node.kind = kind at h
    cases kind <;> first | exact absurd rfl h | decide
  exact conjoinBy_spec hmeet hblind (meetMorphs_met hmeet hblind) hvalid (hbranches.within l (by simp))
    (hbranches.within r (by simp)) (horder (hbranches.notUnions l (by simp)))
    (horder (hbranches.notUnions r (by simp)))

-- ---------------------------------------------------------------------------
-- Columns
-- ---------------------------------------------------------------------------

/-- The intersections that are parked in columns. -/
def parkedOf (columns : List Column) : List Node := columns.flatMap fun column => column.parked.getD []

/-- The branches of the columns that are not settled. -/
def liveOf (columns : List Column) : List Node :=
  columns.flatMap fun column => if column.parked.isSome then [column.branch] else []

/-- The columns after a row. -/
def Row.after (row : Row) : List Column := row.columns.map fun (column, candidate) => column.park candidate

/-- What is parked in a column is within reach, and its branch covers it. -/
structure Column.Fit (safe : Safety) (depth : Nat) (space : Space) (column : Column) : Prop where
  branch : Branches safe depth space [column.branch]
  within : ∀ n ∈ column.parked.getD [], n.Within safe (depth + 1) space
  covered : BlindToSign → space.Regular → ∀ v, anyAllows (column.parked.getD []) v = true →
    column.branch.allows v = true

theorem Column.Fit.extends {later : Space} {column : Column} (h : column.Fit safe depth space)
    (hext : later.Extends space) : column.Fit safe depth later where
  branch := h.branch.extends hext
  within := fun n hn => (h.within n hn).extends hext
  covered := fun hblind hregular => h.covered hblind (hregular.earlier hext)

omit [Behaviour] in
@[simp] theorem Column.park_none (column : Column) : column.park none = column := by
  cases column with
  | mk branch parked => cases parked <;> simp [park]

omit [Behaviour] in
@[simp] theorem Column.park_isSome (column : Column) (candidate : Option Node) :
    (column.park candidate).parked.isSome = column.parked.isSome := by
  cases column with
  | mk branch parked => cases parked <;> rfl

omit [Behaviour] in
@[simp] theorem Column.park_branch (column : Column) (candidate : Option Node) :
    (column.park candidate).branch = column.branch := rfl

/-- What one branch does to columns: what it has in common with them is settled or parked. -/
structure Crossed (safe : Safety) (depth : Nat) (branch : Node) (columns : List Column) (space : Space) (row : Row) :
    Prop where
  within : ∀ n ∈ row.settled, n.Within safe (depth + 1) space
  fit : ∀ column ∈ row.after, column.Fit safe depth space
  parked : BlindToSign → space.Regular → ∀ v, Agrees safe.exact (anyAllows row.settled v || anyAllows (parkedOf row.after) v)
    (anyAllows (parkedOf columns) v || branch.allows v && anyAllows (liveOf columns) v)
  live : BlindToSign → space.Regular → ∀ v, (anyAllows row.settled v || anyAllows (liveOf row.after) v) =
    (anyAllows row.settled v || anyAllows (liveOf columns) v)
  absorbed : BlindToSign → space.Regular → row.absorbed = true → ∀ v, branch.allows v = true →
    (anyAllows row.settled v || anyAllows (parkedOf row.after) v) = true

theorem Crossed.extends {later : Space} {branch : Node} {columns : List Column} {row : Row}
    (h : Crossed safe depth branch columns space row) (hext : later.Extends space) :
    Crossed safe depth branch columns later row where
  within := fun n hn => (h.within n hn).extends hext
  fit := fun column hcolumn => (h.fit column hcolumn).extends hext
  parked := fun hblind hregular => h.parked hblind (hregular.earlier hext)
  live := fun hblind hregular => h.live hblind (hregular.earlier hext)
  absorbed := fun hblind hregular => h.absorbed hblind (hregular.earlier hext)

theorem crossed_nil (branch : Node) : Crossed safe depth branch [] space ⟨[], [], false⟩ where
  within := List.forall_mem_nil _
  fit := List.forall_mem_nil _
  parked := fun _ _ v => .of_eq (Bool.and_false _).symm
  live := fun _ _ _ => rfl
  absorbed := fun _ _ h => by cases h

omit [Behaviour] in
@[simp] theorem parkedOf_nil : parkedOf [] = [] := rfl

omit [Behaviour] in
@[simp] theorem liveOf_nil : liveOf [] = [] := rfl

omit [Behaviour] in
theorem parkedOf_cons (column : Column) (rest : List Column) :
    parkedOf (column :: rest) = column.parked.getD [] ++ parkedOf rest := rfl

omit [Behaviour] in
theorem liveOf_cons (column : Column) (rest : List Column) : liveOf (column :: rest) =
    (if column.parked.isSome then [column.branch] else []) ++ liveOf rest := rfl

omit [Behaviour] in
theorem Column.parked_subset (column : Column) (candidate : Option Node) :
    ∀ n ∈ column.parked.getD [], n ∈ (column.park candidate).parked.getD [] := by
  cases column with
  | mk branch parked => cases parked <;> simp +contextual [park]

omit [Behaviour] in
@[simp] theorem Row.after_cons (settled : List Node) (column : Column) (candidate : Option Node)
    (columns : List (Column × Option Node)) (absorbed : Bool) :
    Row.after ⟨settled, (column, candidate) :: columns, absorbed⟩ =
      column.park candidate :: Row.after ⟨settled, columns, absorbed⟩ := rfl

omit [Behaviour] in
@[simp] theorem Row.after_nil (settled : List Node) (absorbed : Bool) : Row.after ⟨settled, [], absorbed⟩ = [] := rfl

/-- A column and the columns to the right of it. Where these absorb the branch, nothing is parked in the column. -/
theorem Crossed.cons {branch : Node} {column column' : Column} {settled : List Node} {candidate : Option Node}
    {rest : List Column} {row : Row}
    (h : Crossed safe depth branch [column] space ⟨settled, [(column', candidate)], false⟩)
    (hfit : column'.Fit safe depth space)
    (hkeep : BlindToSign → space.Regular → ∀ v, anyAllows (column.parked.getD []) v = true →
      (anyAllows settled v || anyAllows (column'.parked.getD []) v) = true)
    (hrow : Crossed safe depth branch rest space row) : Crossed safe depth branch (column :: rest) space
      ⟨settled ++ row.settled, (column', if row.absorbed then none else candidate) :: row.columns, row.absorbed⟩ := by
  have hafter : Row.after ⟨settled ++ row.settled, row.columns, row.absorbed⟩ = row.after := rfl
  have hparked := h.parked
  have hlive := h.live
  simp only [Row.after_cons, Row.after_nil, parkedOf_cons, liveOf_cons, Column.park_isSome, Column.park_branch,
    anyAllows_append, parkedOf_nil, liveOf_nil, anyAllows_nil, Bool.or_false] at hparked hlive
  refine ⟨List.forall_mem_append.mpr ⟨h.within, hrow.within⟩, ?_, ?_, ?_, ?_⟩
  · rw [Row.after_cons, hafter]
    refine List.forall_mem_cons.mpr ⟨?_, hrow.fit⟩
    split
    · rw [Column.park_none]
      exact hfit
    · exact h.fit _ List.mem_cons_self
  · intro hblind hregular v
    obtain ⟨hsound, hcomplete⟩ := hparked hblind hregular v
    obtain ⟨hrestSound, hrestComplete⟩ := hrow.parked hblind hregular v
    have habsorbed := hrow.absorbed hblind hregular
    have hkeep := hkeep hblind hregular v
    have hmore : anyAllows (column'.parked.getD []) v = true → anyAllows ((column'.park candidate).parked.getD []) v =
        true := by
      rw [anyAllows_iff, anyAllows_iff]
      exact fun ⟨n, hn, hv⟩ => ⟨n, column'.parked_subset candidate n hn, hv⟩
    simp only [Row.after_cons, hafter, parkedOf_cons, liveOf_cons, anyAllows_append]
    cases hrowAbsorbed : row.absorbed with
    | false =>
        simp only [Bool.false_eq_true, if_false]
        constructor <;> grind
    | true =>
        have habsorbed := habsorbed hrowAbsorbed v
        simp only [if_true, Column.park_none]
        constructor <;> grind
  · intro hblind hregular v
    have hcolumn := hlive hblind hregular v
    have hrest := hrow.live hblind hregular v
    simp only [Row.after_cons, hafter, liveOf_cons, Column.park_isSome, Column.park_branch, anyAllows_append]
    grind
  · intro hblind hregular hrowAbsorbed v hv
    have hrest := hrow.absorbed hblind hregular hrowAbsorbed v hv
    simp only [Row.after_cons, hafter, parkedOf_cons, anyAllows_append]
    grind

/-- A live column with one more intersection that its branch covers. -/
theorem Column.Fit.park {column : Column} (h : column.Fit safe depth space) {n : Node}
    (hn : n.Within safe (depth + 1) space)
    (hcovered : BlindToSign → space.Regular → ∀ v, n.allows v = true → column.branch.allows v = true) :
    (column.park (some n)).Fit safe depth space := by
  obtain ⟨branch, parked⟩ := column
  cases parked with
  | none => exact h
  | some nodes =>
      refine ⟨h.branch, List.forall_mem_append.mpr ⟨h.within, List.forall_mem_singleton.mpr hn⟩, ?_⟩
      intro hblind hregular v hv
      rcases Bool.or_eq_true_iff.mp ((anyAllows_append nodes [n] v).symm.trans hv) with hv | hv
      · exact h.covered hblind hregular v hv
      · rw [anyAllows_cons, anyAllows_nil, Bool.or_false] at hv
        exact hcovered hblind hregular v hv

theorem anyAllows_park {column : Column} (hlive : column.parked.isSome = true) (n : Node) (v : Value) :
    anyAllows ((column.park (some n)).parked.getD []) v = (anyAllows (column.parked.getD []) v || n.allows v) := by
  obtain ⟨branch, parked⟩ := column
  cases parked with
  | none => cases hlive
  | some nodes =>
      refine (anyAllows_append nodes [n] v).trans ?_
      rw [anyAllows_cons, anyAllows_nil, Bool.or_false]
      rfl

omit [Behaviour] in
theorem Row.after_idle (settled : List Node) (columns : List Column) (absorbed : Bool) :
    Row.after ⟨settled, columns.map (·, none), absorbed⟩ = columns := by
  unfold Row.after
  rw [List.map_map]
  exact (List.map_congr_left fun column _ => column.park_none).trans (List.map_id columns)

theorem Column.Fit.settle {column : Column} (h : column.Fit safe depth space) :
    Column.Fit safe depth space ⟨column.branch, none⟩ :=
  ⟨h.branch, List.forall_mem_nil _, fun _ _ _ hv => by cases hv⟩

/-- A column without anything in common with a branch, or settled before. -/
theorem crossed_apart {branch : Node} {column : Column} (hfit : column.Fit safe depth space)
    (h : safe.exact → space.Regular → column.parked.isSome = true → ∀ v,
      (branch.allows v && column.branch.allows v) = false) :
    Crossed safe depth branch [column] space ⟨[], [(column, none)], false⟩ where
  within := List.forall_mem_nil _
  fit := by simpa using hfit
  parked := by
    intro _ hregular v
    refine ⟨fun hv => ?_, fun hexact => ?_⟩
    · simp only [anyAllows_nil, Bool.false_or, Row.after_cons, Row.after_nil, Column.park_none] at hv
      rw [hv, Bool.true_or]
    · have hnone := h hexact hregular
      cases hlive : column.parked.isSome with
      | false => simp [parkedOf_cons, liveOf_cons, hlive]
      | true => simp [parkedOf_cons, liveOf_cons, hlive, hnone hlive v]
  live := fun _ _ v => by simp
  absorbed := fun _ _ h => by cases h

/-- A column in which what it has in common with a branch is parked. -/
theorem crossed_parked {branch n : Node} {column : Column} (hfit : column.Fit safe depth space)
    (hlive : column.parked.isSome = true) (hbranch : Branches safe depth space [branch])
    (h : Conjunct safe (depth + 1) branch column.branch space n) :
    Crossed safe depth branch [column] space ⟨[], [(column, some n)], false⟩ where
  within := List.forall_mem_nil _
  fit := by
    have hwithin := h.within (hbranch.within branch List.mem_cons_self) (hfit.branch.within _ List.mem_cons_self)
    refine List.forall_mem_singleton.mpr (hfit.park hwithin ?_)
    intro hblind hregular v hv
    exact (Bool.and_eq_true_iff.mp ((h.allows hblind hregular v).sound hv)).2
  parked := by
    intro hblind hregular v
    have hn := (Agrees.refl (anyAllows (column.parked.getD []) v)).or (h.allows hblind hregular v)
    simpa [parkedOf_cons, liveOf_cons, anyAllows_park hlive, hlive] using hn
  live := fun _ _ v => by simp [liveOf_cons]
  absorbed := fun _ _ h => by cases h

/-- A column whose branch belongs to the result as a whole. -/
theorem crossed_settled {branch : Node} {column : Column} (hfit : column.Fit safe depth space)
    (hlive : column.parked.isSome = true)
    (h : BlindToSign → space.Regular → ∀ v, column.branch.allows v = true → branch.allows v = true) :
    Crossed safe depth branch [column] space ⟨[column.branch], [(⟨column.branch, none⟩, none)], false⟩ where
  within := hfit.branch.within
  fit := by simpa using hfit.settle
  parked := by
    intro hblind hregular v
    have hbranch := h hblind hregular v
    have hcovered := hfit.covered hblind hregular v
    refine .of_eq ?_
    simp only [Row.after_cons, Row.after_nil, Column.park_none, parkedOf_cons, liveOf_cons, hlive, anyAllows_append,
      anyAllows_cons, anyAllows_nil, parkedOf_nil, liveOf_nil, if_true, Option.getD_none]
    grind
  live := fun _ _ v => by simp [liveOf_cons, hlive]
  absorbed := fun _ _ h => by cases h

/-- A branch that a column covers is parked there as a whole, and the columns to the right are passed over. -/
theorem crossed_covered {branch : Node} {column : Column} {rest : List Column}
    (hfit : ∀ c ∈ column :: rest, c.Fit safe depth space) (hlive : column.parked.isSome = true)
    (hbranch : Branches safe depth space [branch])
    (h : BlindToSign → space.Regular → ∀ v, branch.allows v = true → column.branch.allows v = true) :
    Crossed safe depth branch (column :: rest) space
      ⟨[], (column, some branch) :: rest.map (·, none), true⟩ where
  within := List.forall_mem_nil _
  fit := by
    obtain ⟨hcolumn, hrest⟩ := List.forall_mem_cons.mp hfit
    rw [Row.after_cons, Row.after_idle]
    exact List.forall_mem_cons.mpr ⟨hcolumn.park (hbranch.within branch List.mem_cons_self) h, hrest⟩
  parked := by
    intro hblind hregular v
    have hcovered := h hblind hregular v
    refine .of_eq ?_
    simp only [Row.after_cons, Row.after_idle, parkedOf_cons, liveOf_cons, hlive, anyAllows_append, anyAllows_cons,
      anyAllows_nil, anyAllows_park hlive, if_true]
    grind
  live := by
    intro _ _ v
    simp [Row.after_idle, liveOf_cons]
  absorbed := by
    intro _ _ _ v hv
    simp [parkedOf_cons, anyAllows_park hlive, hv]

/-- A branch of the type of a column settles it. -/
theorem crossed_same {branch : Node} {column : Column} {rest : List Column} (hvalid : space.Valid)
    (hfit : ∀ c ∈ column :: rest, c.Fit safe depth space) (hlive : column.parked.isSome = true)
    (hbranch : Branches safe depth space [branch]) (hsame : branch.sameType column.branch = true) :
    Crossed safe depth branch (column :: rest) space
      ⟨[branch], (⟨column.branch, none⟩, none) :: rest.map (·, none), true⟩ := by
  obtain ⟨hcolumn, hrest⟩ := List.forall_mem_cons.mp hfit
  have heq (hregular : space.Regular) (v : Value) : branch.allows v = column.branch.allows v :=
    hvalid.allows_eq hregular (hbranch.holds branch List.mem_cons_self)
      (hcolumn.branch.holds column.branch List.mem_cons_self) hsame v
  refine ⟨hbranch.within, ?_, ?_, ?_, ?_⟩
  · rw [Row.after_cons, Row.after_idle, Column.park_none]
    exact List.forall_mem_cons.mpr ⟨hcolumn.settle, hrest⟩
  · intro hblind hregular v
    have heq := heq hregular v
    have hcovered := hcolumn.covered hblind hregular v
    refine .of_eq ?_
    simp only [Row.after_cons, Row.after_idle, Column.park_none, parkedOf_cons, liveOf_cons, hlive, anyAllows_append,
      anyAllows_cons, anyAllows_nil, if_true, Option.getD_none]
    grind
  · intro _ hregular v
    have heq := heq hregular v
    simp only [Row.after_cons, Row.after_idle, Column.park_none, liveOf_cons, hlive, anyAllows_append, anyAllows_cons,
      anyAllows_nil, if_true, Option.isSome_none, Bool.false_eq_true, if_false]
    grind
  · intro _ _ _ v hv
    simp [hv]

theorem meetRow_spec {conjoin : Meet} (hconjoin : ConjoinsBranches ground safe depth conjoin) {branch : Node}
    {columns : List Column} (hvalid : space.Valid) (hbranch : Branches safe depth space [branch])
    (hfit : ∀ column ∈ columns, column.Fit safe depth space) :
    Ensures ground safe space (meetRow conjoin branch columns) fun later row =>
      Crossed safe depth branch columns later row := by
  induction columns generalizing space with
  | nil => exact Ensures.pure hvalid (crossed_nil branch)
  | cons column rest ih =>
      obtain ⟨hcolumn, hrest⟩ := List.forall_mem_cons.mp hfit
      -- What remains to be done where the rest of the columns is crossed as well.
      have hpass (space' : Space) (hvalid' : space'.Valid) (hext : space'.Extends space) (column' : Column)
          (settled : List Node) (candidate : Option Node)
          (h : Crossed safe depth branch [column] space' ⟨settled, [(column', candidate)], false⟩)
          (hfit : column'.Fit safe depth space')
          (hkeep : BlindToSign → space'.Regular → ∀ v, anyAllows (column.parked.getD []) v = true →
            (anyAllows settled v || anyAllows (column'.parked.getD []) v) = true) :
          Ensures ground safe space' (do
            let row ← meetRow conjoin branch rest
            let candidate := if row.absorbed then none else candidate
            return ⟨settled ++ row.settled, (column', candidate) :: row.columns, row.absorbed⟩) fun later row =>
              Crossed safe depth branch (column :: rest) later row := by
        refine (ih hvalid' (hbranch.extends hext) fun c hc => (hrest c hc).extends hext).bind ?_
        intro later row hlater hext' hrow
        refine Ensures.pure hlater ((h.extends hext').cons (hfit.extends hext') ?_ hrow)
        exact fun hblind hregular => hkeep hblind (hregular.earlier hext')
      have hidle (space' : Space) (hvalid' : space'.Valid) (hext : space'.Extends space)
          (h : safe.exact → space'.Regular → column.parked.isSome = true → ∀ v,
            (branch.allows v && column.branch.allows v) = false) :=
        hpass space' hvalid' hext column [] none (crossed_apart (hcolumn.extends hext) h) (hcolumn.extends hext)
          fun _ _ _ hv => hv
      unfold meetRow
      dsimp only
      split
      · rename_i hdead
        refine hidle space hvalid (.refl space) fun _ _ hlive => ?_
        rw [Option.isNone_iff_eq_none.mp hdead] at hlive
        cases hlive
      rename_i hlive
      have hlive : column.parked.isSome = true := Option.isSome_iff_ne_none.mpr (by simpa using hlive)
      split
      · rename_i hsame
        exact Ensures.pure hvalid (crossed_same hvalid hfit hlive hbranch hsame)
      have hpair : Branches safe depth space [branch, column.branch] := hbranch.append hcolumn.branch
      refine (hconjoin space branch column.branch hvalid hpair).bind ?_
      intro later out hvalid' hext hout
      have hb := hext.holds branch (hpair.holds branch (by simp))
      have hc := hext.holds column.branch (hpair.holds column.branch (by simp))
      cases out with
      | node n =>
          have hout : Conjunct safe (depth + 1) branch column.branch later n := hout
          dsimp only
          split
          · rename_i hsame
            exact Ensures.pure hvalid' (crossed_covered (fun c hc => (hfit c hc).extends hext) hlive
              (hbranch.extends hext) fun hblind hregular _ => hout.right_of_left hvalid' hb hsame hblind hregular)
          split
          · rename_i hsame
            refine hpass later hvalid' hext ⟨column.branch, none⟩ [column.branch] none
              (crossed_settled (hcolumn.extends hext) hlive fun hblind hregular _ =>
                hout.left_of_right hvalid' hc hsame hblind hregular) (hcolumn.extends hext).settle ?_
            intro hblind hregular v hv
            simp [(hcolumn.extends hext).covered hblind hregular v hv]
          · exact hpass later hvalid' hext column [] (some n)
              (crossed_parked (hcolumn.extends hext) hlive (hbranch.extends hext) hout) (hcolumn.extends hext)
              fun _ _ _ hv => hv
      | disjoint d => exact hidle later hvalid' hext fun hexact hregular _ => hout hexact hregular
      | orthogonal => exact hout.elim

-- ---------------------------------------------------------------------------
-- Intersecting unions
-- ---------------------------------------------------------------------------

theorem meetRows_spec {conjoin : Meet} (hconjoin : ConjoinsBranches ground safe depth conjoin) {branches : List Node}
    {columns : List Column} (hvalid : space.Valid) (hbranches : Branches safe depth space branches)
    (hfit : ∀ column ∈ columns, column.Fit safe depth space) :
    Ensures ground safe space (meetRows conjoin branches columns) fun later out =>
      (∀ n ∈ out, n.Within safe (depth + 1) later) ∧ (BlindToSign → later.Regular → ∀ v, Agrees safe.exact (anyAllows out v)
        (anyAllows (parkedOf columns) v || anyAllows branches v && anyAllows (liveOf columns) v)) := by
  induction branches generalizing space columns with
  | nil =>
      refine Ensures.pure hvalid ⟨fun n hn => ?_, fun _ _ v => .of_eq ?_⟩
      · obtain ⟨column, hcolumn, hn⟩ := List.mem_flatMap.mp hn
        exact (hfit column hcolumn).within n hn
      · rw [anyAllows_nil, Bool.false_and, Bool.or_false]
        rfl
  | cons branch rest ih =>
      have hbranch := hbranches.subset (List.forall_mem_singleton.mpr List.mem_cons_self)
      have hrest := hbranches.subset fun _ hn => List.mem_cons_of_mem branch hn
      unfold meetRows
      refine (meetRow_spec hconjoin hvalid hbranch hfit).bind ?_
      intro later row hvalid' hext hrow
      change Ensures ground safe later (do return row.settled ++ (← meetRows conjoin rest row.after)) _
      refine (ih hvalid' (hrest.extends hext) hrow.fit).bind ?_
      rintro final out hfinal hext' ⟨hwithin, hallows⟩
      have hrow := hrow.extends hext'
      refine Ensures.pure hfinal ⟨List.forall_mem_append.mpr ⟨hrow.within, hwithin⟩, fun hblind hregular v => ?_⟩
      obtain ⟨hsound, hcomplete⟩ := hrow.parked hblind hregular v
      obtain ⟨houtSound, houtComplete⟩ := hallows hblind hregular v
      have hlive := hrow.live hblind hregular v
      rw [anyAllows_append, anyAllows_cons]
      constructor <;> grind

/-- Columns in which nothing was parked yet. -/
def freshColumns (nodes : List Node) : List Column := nodes.map fun node => ⟨node, some []⟩

theorem fit_freshColumns {nodes : List Node} (h : Branches safe depth space nodes) :
    ∀ column ∈ freshColumns nodes, column.Fit safe depth space := by
  intro column hcolumn
  obtain ⟨node, hnode, rfl⟩ := List.mem_map.mp hcolumn
  exact ⟨h.subset (List.forall_mem_singleton.mpr hnode), List.forall_mem_nil _, fun _ _ _ hv => by cases hv⟩

omit [Behaviour] in
@[simp] theorem parkedOf_freshColumns (nodes : List Node) : parkedOf (freshColumns nodes) = [] := by
  simp [parkedOf, freshColumns]

omit [Behaviour] in
@[simp] theorem liveOf_freshColumns (nodes : List Node) : liveOf (freshColumns nodes) = nodes := by
  simp [liveOf, freshColumns, List.flatMap_map]

theorem intersectBranches_spec {conjoin : Meet} (hconjoin : ConjoinsBranches ground safe depth conjoin)
    {lBranches rBranches : List Node} (hvalid : space.Valid) (hl : Branches safe depth space lBranches)
    (hr : Branches safe depth space rBranches) :
    Ensures ground safe space (intersectBranches conjoin lBranches rBranches) fun later out =>
      (∀ n ∈ out, n.Within safe (depth + 1) later) ∧ (BlindToSign → later.Regular → ∀ v,
        Agrees safe.exact (anyAllows out v) (anyAllows lBranches v && anyAllows rBranches v)) := by
  change Ensures ground safe space (meetRows conjoin lBranches (freshColumns rBranches)) _
  refine (meetRows_spec hconjoin hvalid hl (fit_freshColumns hr)).imp ?_
  rintro later out _ _ ⟨hwithin, hmeaning⟩
  refine ⟨hwithin, fun hblind hregular v => ?_⟩
  have hout := hmeaning hblind hregular v
  rwa [parkedOf_freshColumns, liveOf_freshColumns, anyAllows_nil, Bool.false_or] at hout

/-- The branches of any node: they allow together what it allows. -/
theorem branches_spec (hvalid : space.Valid) {node : Node} (h : node.Within safe (depth + 1) space) :
    Branches safe depth space node.branches.1 ∧ ∀ v, anyAllows node.branches.1 v = node.allows v := by
  unfold branches
  split
  · rename_i nodes ordered hc
    refine ⟨(branches_of_union hvalid h.toCalm hc).1, fun v => ?_⟩
    exact (allows_union hvalid h.holds hc v).symm
  · rename_i hnot
    refine ⟨branches_singleton h ?_, fun v => ?_⟩
    · unfold kind
      intro hk
      cases hc : node.content with
      | union nodes ordered => exact hnot nodes ordered hc
      | _ => rw [hc] at hk; cases hk
    · rw [anyAllows_cons, anyAllows_nil, Bool.or_false]

theorem meetUnions_met {meet : Meet} (hmeet : Conjoins ground safe depth meet) (hblind : safe.exact → BlindToSign) :
    Meets 0 ground safe depth (meetUnions meet) := by
  intro space l r hvalid hl hr _ horder hne
  have hconjoin := conjoinBranches_spec hmeet hblind
  unfold meetUnions
  split
  · rename_i lBranches lOrdered hc
    have hlBranches := (branches_of_union hvalid hl.toCalm hc).1
    have hlAllows := allows_union hvalid hl.holds hc
    obtain ⟨hrBranches, hrAllows⟩ := branches_spec hvalid hr
    generalize r.branches = rAll at hrBranches hrAllows
    obtain ⟨rBranches, rOrdered⟩ := rAll
    dsimp only at hrBranches hrAllows ⊢
    split
    · rename_i hlEmpty hrEmpty
      refine Ensures.pure hvalid ⟨hl.toCalm, fun hroot _ => hroot, fun _ _ v => .of_eq ?_⟩
      rw [hlAllows, List.isEmpty_iff.mp hlEmpty]
      rfl
    · refine (intersectBranches_spec hconjoin hvalid hlBranches hrBranches).bind ?_
      rintro later found hvalid' hext ⟨hfound, hmeaning⟩
      split
      · rename_i hempty
        refine Ensures.pure hvalid' fun hexact hregular v => ?_
        rw [hlAllows, ← hrAllows, ← (hmeaning (hblind hexact) hregular v).eq hexact, List.isEmpty_iff.mp hempty]
        rfl
      · refine (assembleUnionBy_spec hconjoin hvalid' hfound).bind ?_
        intro final n hfinal hext' hunion
        refine Ensures.pure hfinal ⟨hunion.calm, fun _ _ => hunion.root, fun hblind hregular v => ?_⟩
        rw [hunion.allows hblind hregular v, hlAllows, ← hrAllows]
        exact hmeaning hblind (hregular.earlier hext') v
    · rename_i hnotBoth hnotNone
      -- One of the two lists is empty, so no value is allowed by both.
      refine Ensures.pure hvalid fun _ _ v => ?_
      rw [hlAllows, ← hrAllows]
      cases lBranches with
      | nil => rfl
      | cons b rest =>
          cases rBranches with
          | nil => exact Bool.and_false _
          | cons b' rest' => exact (hnotNone rfl rfl).elim
  · rename_i hnot
    refine meetMorphs_met hmeet hblind space l r hvalid hl hr ?_ horder hne
    have hk : l.kind ≠ .union := by
      unfold kind
      intro h
      cases hc : l.content with
      | union nodes ordered => exact hnot nodes ordered hc
      | _ => rw [hc] at h; cases h
    generalize l.kind = kind at hk
    cases kind <;> first | exact absurd rfl hk | decide

-- ---------------------------------------------------------------------------
-- Intersecting any nodes
-- ---------------------------------------------------------------------------

/-- Conjunctions are sound at every depth, and exact where `safe` holds. -/
theorem conjoinWithin_spec (hblind : safe.exact → BlindToSign) (depth : Nat) :
    Conjoins ground safe depth (conjoinWithin depth) := by
  induction depth with
  | zero =>
      intro space l r hvalid hl _
      exact Ensures.absurd hvalid (fun hregular => Nat.not_lt_zero _ (hl.shallow hregular)) (by rintro ⟨⟩)
  | succ depth ih =>
      intro space l r hvalid hl hr
      exact conjoinBy_spec ih hblind (meetUnions_met ih hblind) hvalid hl hr (Nat.zero_le _) (Nat.zero_le _)

end Node

end SchemaAlgebra
