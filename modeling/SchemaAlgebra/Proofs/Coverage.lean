-- SUMMARY: Intersecting lists of branches: whatever two branches have in common is found inside one result.
import SchemaAlgebra.Proofs.Depth
import SchemaAlgebra.Proofs.SteadyUnions
import SchemaAlgebra.Proofs.Subtyping

/-!
# Coverage

A row stops at the first column that contains its branch, a column that a branch contains
is settled with everything parked in it, and later rows pass over settled columns. So most
pairs of branches are never conjoined, or what they have in common is dropped again. None
of it is lost: at any time, what was dropped is a subtype of something that belongs to the
result already or is still parked, and of what is parked the same holds later on.

What a pair of branches comes to elsewhere, before or after, is a node of the same type as
here, since conjoining depends on types only.
-/

namespace SchemaAlgebra

namespace Node

open Space (Twins Abreast)
open SpaceM (Ensures)

variable [Behaviour] {a b c n p branch : Node} {l r nodes more : List Node}

-- ---------------------------------------------------------------------------
-- Subtypes of some node
-- ---------------------------------------------------------------------------

theorem SubtypeOf.refl (a : Node) : a.SubtypeOf a := fun _ hv => hv

theorem SubtypeOf.trans (h : a.SubtypeOf b) (h' : b.SubtypeOf c) : a.SubtypeOf c := fun v hv => h' v (h v hv)

/-- A node is a subtype of one of several nodes. -/
def BelowSome (nodes : List Node) (node : Node) : Prop := ∃ q ∈ nodes, node.SubtypeOf q

theorem belowSome_of_mem (h : n ∈ nodes) : BelowSome nodes n := ⟨n, h, .refl n⟩

theorem SubtypeOf.belowSome (h : a.SubtypeOf b) (hb : BelowSome nodes b) : BelowSome nodes a := by
  obtain ⟨q, hq, hsub⟩ := hb
  exact ⟨q, hq, h.trans hsub⟩

theorem BelowSome.trans (h : BelowSome nodes n) (hmore : ∀ q ∈ nodes, BelowSome more q) : BelowSome more n := by
  obtain ⟨q, hq, hsub⟩ := h
  exact hsub.belowSome (hmore q hq)

theorem BelowSome.mono (h : BelowSome nodes n) (hsubset : ∀ q ∈ nodes, q ∈ more) : BelowSome more n :=
  h.trans fun q hq => belowSome_of_mem (hsubset q hq)

-- ---------------------------------------------------------------------------
-- What two branches come to
-- ---------------------------------------------------------------------------

/-- Conjoining two branches at some time on the way to a space comes to an outcome. -/
def Comes (conjoin : Meet) (depth : Nat) (last : Space) (a b : Node) (out : Intersected) : Prop :=
  ∃ asked : Space, asked.Valid ∧ Branches False depth asked [a, b] ∧ last.Extends ((conjoin a b).exec asked).2 ∧
    ((conjoin a b).exec asked).1 = .ok out

/-- A way of conjoining branches that is sound and keeps in step on the way to a regular space. -/
structure Dependable (conjoin : Meet) (depth : Nat) (last : Space) : Prop where
  blind : BlindToSign
  valid : last.Valid
  regular : last.Regular
  spec : ConjoinsBranches False False depth conjoin
  steady : Steady last last conjoin

theorem conjoinBranches_dependable (hblind : BlindToSign) {last : Space} (hvalid : last.Valid)
    (hregular : last.Regular) (depth : Nat) : Dependable (conjoinBranches (conjoinWithin depth)) depth last where
  blind := hblind
  valid := hvalid
  regular := hregular
  spec := conjoinBranches_spec (conjoinWithin_spec False.elim depth) False.elim
  steady :=
    have habreast := hvalid.abreast hregular
    conjoinBranches_steady habreast hblind (conjoinWithin_steady habreast hblind depth)

variable {space last : Space} {conjoin : Meet} {depth : Nat} (h : Dependable conjoin depth last)

include h

theorem Comes.holds {out : Intersected} (hout : Comes conjoin depth last a b out) : last.Holds a ∧ last.Holds b := by
  obtain ⟨asked, hvalid, hbranches, hext, -⟩ := hout
  have hlast := hext.trans (h.spec asked a b hvalid hbranches).extension
  exact ⟨hlast.holds a (hbranches.holds a (by simp)), hlast.holds b (hbranches.holds b (by simp))⟩

theorem Comes.conjunct (hp : Comes conjoin depth last a b (.node p)) :
    last.Holds p ∧ p.SubtypeOf a ∧ p.SubtypeOf b := by
  obtain ⟨asked, hvalid, hbranches, hext, hexec⟩ := hp
  have hconjunct : Conjunct False (depth + 1) a b _ p := (h.spec asked a b hvalid hbranches).result _ hexec
  have hboth (v : Value) (hv : p.allows v = true) : a.allows v = true ∧ b.allows v = true :=
    Bool.and_eq_true_iff.mp ((hconjunct.allows h.blind (h.regular.earlier hext) v).sound hv)
  exact ⟨hext.holds p hconjunct.calm.holds, fun v hv => (hboth v hv).1, fun v hv => (hboth v hv).2⟩

/-- Two branches come to nodes that allow the same, if they come to a node at all. -/
theorem Comes.node (hp : Comes conjoin depth last a b (.node p)) {out : Intersected}
    (hout : Comes conjoin depth last a b out) : ∃ n, out = .node n ∧ p.SubtypeOf n := by
  obtain ⟨ha, hb⟩ := hp.holds h
  obtain ⟨asked, hvalid, -, hext, hexec⟩ := hp
  obtain ⟨asked', hvalid', -, hext', hexec'⟩ := hout
  have hagree := (h.steady.agree ⟨ha, ha, rfl⟩ ⟨hb, hb, rfl⟩).agree asked asked' hvalid.tidy hvalid'.tidy hext hext'
  rw [hexec, hexec'] at hagree
  cases hagree with
  | ok hrelated =>
      cases hrelated with
      | @node _ n htwins =>
          refine ⟨n, rfl, fun v hv => ?_⟩
          rwa [← htwins.allows_eq (h.valid.abreast h.regular)]

theorem subtypeOf_of_sameType (ha : last.Holds a) (hb : last.Holds b) (hsame : a.sameType b = true) : a.SubtypeOf b :=
  fun v hv => (h.valid.allows_eq h.regular ha hb hsame v).symm.trans hv

-- ---------------------------------------------------------------------------
-- Columns
-- ---------------------------------------------------------------------------

omit h
omit [Behaviour] in
theorem Column.mem_park {column : Column} (hlive : column.parked.isSome = true) (n : Node) :
    n ∈ (column.park (some n)).parked.getD [] := by
  obtain ⟨branch, parked⟩ := column
  cases parked with
  | none => cases hlive
  | some nodes => simp [park]

omit [Behaviour] in
theorem Column.mem_of_park {column : Column} {candidate : Option Node}
    (hn : n ∈ (column.park candidate).parked.getD []) : n ∈ column.parked.getD [] ∨ n ∈ candidate := by
  obtain ⟨branch, parked⟩ := column
  cases parked with
  | none => cases hn
  | some nodes => simpa [park] using hn

/-- What is parked in a column for branches is a subtype of the column and of one of them. -/
structure Column.Serves (l r : List Node) (column : Column) : Prop where
  branch : column.branch ∈ r
  parked : ∀ n ∈ column.parked.getD [], n.SubtypeOf column.branch ∧ BelowSome l n

theorem Column.Serves.park {column : Column} (hserves : column.Serves l r) {candidate : Option Node}
    (hcandidate : ∀ n ∈ candidate, n.SubtypeOf column.branch ∧ BelowSome l n) : (column.park candidate).Serves l r where
  branch := hserves.branch
  parked := fun n hn => (Column.mem_of_park hn).elim (hserves.parked n) (hcandidate n)

theorem Column.Serves.settle {column : Column} (hserves : column.Serves l r) :
    Column.Serves l r ⟨column.branch, none⟩ :=
  ⟨hserves.branch, List.forall_mem_nil _⟩

/-- What one branch does to columns: all that was parked, the branches of columns that are settled now, and whatever the
branch has in common with those that are live, are found inside what is settled or parked afterwards. -/
structure Swept (conjoin : Meet) (depth : Nat) (last : Space) (l r : List Node) (branch : Node) (columns : List Column)
    (row : Row) : Prop where
  settled : ∀ q ∈ row.settled, BelowSome l q ∧ BelowSome r q
  serves : ∀ column ∈ row.after, column.Serves l r
  parked : ∀ n ∈ parkedOf columns, BelowSome (row.settled ++ parkedOf row.after) n
  live : ∀ b ∈ liveOf columns, b ∈ liveOf row.after ∨ BelowSome row.settled b
  pairs : ∀ b ∈ liveOf columns, ∀ p, Comes conjoin depth last branch b (.node p) →
    BelowSome (row.settled ++ parkedOf row.after) p
  absorbed : row.absorbed = true → BelowSome (row.settled ++ parkedOf row.after) branch

theorem swept_nil : Swept conjoin depth last l r branch [] ⟨[], [], false⟩ :=
  ⟨List.forall_mem_nil _, List.forall_mem_nil _, List.forall_mem_nil _, List.forall_mem_nil _, List.forall_mem_nil _,
    nofun⟩

omit [Behaviour] in
theorem mem_parkedOf_cons {column : Column} {rest : List Column} :
    n ∈ parkedOf (column :: rest) ↔ n ∈ column.parked.getD [] ∨ n ∈ parkedOf rest := by
  rw [parkedOf_cons, List.mem_append]

omit [Behaviour] in
theorem mem_liveOf_cons {column : Column} {rest : List Column} :
    n ∈ liveOf (column :: rest) ↔ column.parked.isSome = true ∧ n = column.branch ∨ n ∈ liveOf rest := by
  rw [liveOf_cons, List.mem_append]
  cases column.parked.isSome <;> simp

/-- What a branch does to one column by itself: the branches that it adds to the result, the column afterwards, and what
may be parked there. -/
structure SweptOne (conjoin : Meet) (depth : Nat) (last : Space) (l r : List Node) (branch : Node) (column : Column)
    (added : List Node) (column' : Column) (candidate : Option Node) : Prop where
  settled : ∀ q ∈ added, BelowSome l q ∧ BelowSome r q
  serves : column'.Serves l r
  parks : ∀ n ∈ candidate, n.SubtypeOf column'.branch ∧ BelowSome l n
  parked : ∀ n ∈ column.parked.getD [], BelowSome (added ++ column'.parked.getD []) n
  live : column.parked.isSome = true →
    column'.parked.isSome = true ∧ column.branch = column'.branch ∨ BelowSome added column.branch
  pairs : column.parked.isSome = true → ∀ p, Comes conjoin depth last branch column.branch (.node p) →
    BelowSome added p ∨ column'.parked.isSome = true ∧ ∃ n, candidate = some n ∧ p.SubtypeOf n

/-- A column and the columns to the right of it. Where these absorb the branch, nothing is parked in the column. -/
theorem SweptOne.cons (h : Dependable conjoin depth last) {column column' : Column} {added : List Node}
    {candidate : Option Node} {rest : List Column} {row : Row}
    (hone : SweptOne conjoin depth last l r branch column added column' candidate)
    (hrow : Swept conjoin depth last l r branch rest row) : Swept conjoin depth last l r branch (column :: rest)
      ⟨added ++ row.settled, (column', if row.absorbed then none else candidate) :: row.columns, row.absorbed⟩ := by
  generalize hparks : (if row.absorbed then none else candidate) = parks
  have hafter : Row.after ⟨added ++ row.settled, (column', parks) :: row.columns, row.absorbed⟩ =
      column'.park parks :: row.after := rfl
  have hown : ∀ q ∈ added ++ column'.parked.getD [],
      q ∈ added ++ row.settled ++ parkedOf (column'.park parks :: row.after) := by
    intro q hq
    rcases List.mem_append.mp hq with hq | hq
    · exact List.mem_append_left _ (List.mem_append_left _ hq)
    · exact List.mem_append_right _ (mem_parkedOf_cons.mpr (.inl (column'.parked_subset parks q hq)))
  have hothers : ∀ q ∈ row.settled ++ parkedOf row.after,
      q ∈ added ++ row.settled ++ parkedOf (column'.park parks :: row.after) := by
    intro q hq
    rcases List.mem_append.mp hq with hq | hq
    · exact List.mem_append_left _ (List.mem_append_right _ hq)
    · exact List.mem_append_right _ (mem_parkedOf_cons.mpr (.inr hq))
  refine ⟨List.forall_mem_append.mpr ⟨hone.settled, hrow.settled⟩, ?_, ?_, ?_, ?_, ?_⟩ <;> rw [hafter]
  · refine List.forall_mem_cons.mpr ⟨hone.serves.park fun n hn => hone.parks n ?_, hrow.serves⟩
    rw [← hparks] at hn
    split at hn
    · cases hn
    · exact hn
  · intro n hn
    rcases mem_parkedOf_cons.mp hn with hn | hn
    · exact (hone.parked n hn).mono hown
    · exact (hrow.parked n hn).mono hothers
  · intro b hb
    rw [mem_liveOf_cons, Column.park_isSome, Column.park_branch]
    rcases mem_liveOf_cons.mp hb with ⟨hlive, rfl⟩ | hb
    · exact (hone.live hlive).imp .inl fun hcovered => hcovered.mono fun _ => List.mem_append_left _
    · exact (hrow.live b hb).imp .inr fun hcovered => hcovered.mono fun _ => List.mem_append_right _
  · intro b hb p hp
    rcases mem_liveOf_cons.mp hb with ⟨hlive, rfl⟩ | hb
    · rcases hone.pairs hlive p hp with hcovered | ⟨hlive', n, rfl, hsub⟩
      · exact hcovered.mono fun q hq => hown q (List.mem_append_left _ hq)
      cases habsorbed : row.absorbed with
      | true => exact (hp.conjunct h).2.1.belowSome ((hrow.absorbed habsorbed).mono hothers)
      | false =>
          rw [habsorbed] at hparks
          subst hparks
          refine ⟨n, List.mem_append_right _ (mem_parkedOf_cons.mpr (.inl ?_)), hsub⟩
          exact Column.mem_park hlive' n
    · exact (hrow.pairs b hb p hp).mono hothers
  · exact fun habsorbed => (hrow.absorbed habsorbed).mono hothers

/-- A branch of the type of a column settles it. -/
theorem swept_same (h : Dependable conjoin depth last) {column : Column} {rest : List Column} (hbranch : branch ∈ l)
    (hserves : ∀ c ∈ column :: rest, c.Serves l r) (hsub : branch.SubtypeOf column.branch)
    (hsub' : column.branch.SubtypeOf branch) : Swept conjoin depth last l r branch (column :: rest)
      ⟨[branch], (⟨column.branch, none⟩, none) :: rest.map (·, none), true⟩ := by
  obtain ⟨hcolumn, hrest⟩ := List.forall_mem_cons.mp hserves
  have hcovered : BelowSome ([branch] ++ parkedOf (⟨column.branch, none⟩ :: rest)) branch :=
    belowSome_of_mem List.mem_cons_self
  refine ⟨List.forall_mem_singleton.mpr ⟨belowSome_of_mem hbranch, column.branch, hcolumn.branch, hsub⟩, ?_, ?_, ?_, ?_, ?_⟩ <;>
    rw [Row.after_cons, Row.after_idle, Column.park_none]
  · exact List.forall_mem_cons.mpr ⟨hcolumn.settle, hrest⟩
  · intro n hn
    rcases mem_parkedOf_cons.mp hn with hn | hn
    · exact ((hcolumn.parked n hn).1.trans hsub').belowSome hcovered
    · exact belowSome_of_mem (List.mem_append_right _ (mem_parkedOf_cons.mpr (.inr hn)))
  · intro b hb
    rw [mem_liveOf_cons]
    rcases mem_liveOf_cons.mp hb with ⟨-, rfl⟩ | hb
    · exact .inr ⟨branch, List.mem_cons_self, hsub'⟩
    · exact .inl (.inr hb)
  · exact fun b _ p hp => (hp.conjunct h).2.1.belowSome hcovered
  · exact fun _ => hcovered

/-- A branch that a column covers is parked there as a whole, and the columns to the right are passed over. -/
theorem swept_covered (h : Dependable conjoin depth last) {column : Column} {rest : List Column} (hbranch : branch ∈ l)
    (hserves : ∀ c ∈ column :: rest, c.Serves l r) (hlive : column.parked.isSome = true)
    (hsub : branch.SubtypeOf column.branch) : Swept conjoin depth last l r branch (column :: rest)
      ⟨[], (column, some branch) :: rest.map (·, none), true⟩ := by
  obtain ⟨hcolumn, hrest⟩ := List.forall_mem_cons.mp hserves
  have hcovered : BelowSome ([] ++ parkedOf (column.park (some branch) :: rest)) branch :=
    belowSome_of_mem (mem_parkedOf_cons.mpr (.inl (Column.mem_park hlive branch)))
  refine ⟨List.forall_mem_nil _, ?_, ?_, ?_, ?_, ?_⟩ <;> rw [Row.after_cons, Row.after_idle]
  · refine List.forall_mem_cons.mpr ⟨hcolumn.park ?_, hrest⟩
    rintro _ ⟨⟩
    exact ⟨hsub, belowSome_of_mem hbranch⟩
  · intro n hn
    refine belowSome_of_mem (mem_parkedOf_cons.mpr ((mem_parkedOf_cons.mp hn).imp_left ?_))
    exact column.parked_subset (some branch) n
  · intro b hb
    rw [mem_liveOf_cons, Column.park_isSome, Column.park_branch]
    exact .inl (mem_liveOf_cons.mp hb)
  · exact fun b _ p hp => (hp.conjunct h).2.1.belowSome hcovered
  · exact fun _ => hcovered

/-- A column that a branch leaves as it is: it is settled already, or the two do not come to a node. -/
theorem sweptOne_apart {column : Column} (hserves : column.Serves l r)
    (hnone : column.parked.isSome = true → ∀ p, ¬ Comes conjoin depth last branch column.branch (.node p)) :
    SweptOne conjoin depth last l r branch column [] column none where
  settled := List.forall_mem_nil _
  serves := hserves
  parks := fun _ hn => by cases hn
  parked := fun _ hn => belowSome_of_mem hn
  live := fun hlive => .inl ⟨hlive, rfl⟩
  pairs := fun hlive p hp => absurd hp (hnone hlive p)

/-- A column in which what it has in common with a branch is parked. -/
theorem sweptOne_parked (h : Dependable conjoin depth last) {column : Column} (hbranch : branch ∈ l)
    (hserves : column.Serves l r) (hn : Comes conjoin depth last branch column.branch (.node n)) :
    SweptOne conjoin depth last l r branch column [] column (some n) where
  settled := List.forall_mem_nil _
  serves := hserves
  parks := by
    obtain ⟨-, hsub, hsub'⟩ := hn.conjunct h
    rintro _ ⟨⟩
    exact ⟨hsub', hsub.belowSome (belowSome_of_mem hbranch)⟩
  parked := fun _ hn => belowSome_of_mem hn
  live := fun hlive => .inl ⟨hlive, rfl⟩
  pairs := by
    intro hlive p hp
    obtain ⟨_, ⟨⟩, hsub⟩ := hp.node h hn
    exact .inr ⟨hlive, n, rfl, hsub⟩

/-- A column whose branch belongs to the result as a whole. -/
theorem sweptOne_settled (h : Dependable conjoin depth last) {column : Column} (hbranch : branch ∈ l)
    (hserves : column.Serves l r) (hsub : column.branch.SubtypeOf branch) :
    SweptOne conjoin depth last l r branch column [column.branch] ⟨column.branch, none⟩ none where
  settled := List.forall_mem_singleton.mpr
    ⟨hsub.belowSome (belowSome_of_mem hbranch), belowSome_of_mem hserves.branch⟩
  serves := hserves.settle
  parks := fun _ hn => by cases hn
  parked := fun n hn => ⟨column.branch, List.mem_cons_self, (hserves.parked n hn).1⟩
  live := fun _ => .inr (belowSome_of_mem List.mem_cons_self)
  pairs := fun _ _ hp => .inl ⟨column.branch, List.mem_cons_self, (hp.conjunct h).2.2⟩

-- ---------------------------------------------------------------------------
-- Rows
-- ---------------------------------------------------------------------------

theorem meetRow_swept (h : Dependable conjoin depth last) (hbranch : branch ∈ l) {columns : List Column}
    (hvalid : space.Valid) (hbranches : Branches False depth space [branch])
    (hfit : ∀ column ∈ columns, column.Fit False depth space) :
    Ensures False False space (meetRow conjoin branch columns) fun later row => last.Extends later →
      (∀ column ∈ columns, column.Serves l r) → Swept conjoin depth last l r branch columns row := by
  induction columns generalizing space with
  | nil => exact Ensures.pure hvalid fun _ _ => swept_nil
  | cons column rest ih =>
      obtain ⟨hcolumn, hrest⟩ := List.forall_mem_cons.mp hfit
      have hpair : Branches False depth space [branch, column.branch] := hbranches.append hcolumn.branch
      -- What remains to be done where the rest of the columns is swept as well.
      have hpass (space' : Space) (hvalid' : space'.Valid) (hext : space'.Extends space) (column' : Column)
          (added : List Node) (candidate : Option Node) (hone : last.Extends space' → column.Serves l r →
            SweptOne conjoin depth last l r branch column added column' candidate) :
          Ensures False False space' (do
            let row ← meetRow conjoin branch rest
            let candidate := if row.absorbed then none else candidate
            return ⟨added ++ row.settled, (column', candidate) :: row.columns, row.absorbed⟩) fun later row =>
              last.Extends later → (∀ c ∈ column :: rest, c.Serves l r) →
                Swept conjoin depth last l r branch (column :: rest) row := by
        refine (ih hvalid' (hbranches.extends hext) fun c hc => (hrest c hc).extends hext).bind ?_
        intro later row hlater hext' hrow
        refine Ensures.pure hlater fun hlast hserves => ?_
        obtain ⟨hserves, hserves'⟩ := List.forall_mem_cons.mp hserves
        exact (hone (hlast.trans hext') hserves).cons h (hrow hlast hserves')
      unfold meetRow
      dsimp only
      split
      · rename_i hsettled
        refine hpass space hvalid (.refl space) column [] none fun _ hserves => sweptOne_apart hserves fun hlive => ?_
        rw [Option.isNone_iff_eq_none.mp hsettled] at hlive
        cases hlive
      rename_i hlive
      have hlive : column.parked.isSome = true := Option.isSome_iff_ne_none.mpr (by simpa using hlive)
      split
      · rename_i hsame
        refine Ensures.pure hvalid fun hlast hserves => ?_
        have hheld := hlast.holds branch (hpair.holds branch (by simp))
        have hheld' := hlast.holds column.branch (hpair.holds column.branch (by simp))
        exact swept_same h hbranch hserves (subtypeOf_of_sameType h hheld hheld' hsame)
          (subtypeOf_of_sameType h hheld' hheld ((sameType_comm _ _).trans hsame))
      refine (h.spec space branch column.branch hvalid hpair).traced.bind ?_
      rintro later out hvalid' hext ⟨-, hexec⟩
      have hcomes (hlast : last.Extends later) : Comes conjoin depth last branch column.branch out :=
        ⟨space, hvalid, hpair, by rwa [hexec], by rw [hexec]⟩
      have hapart (hout : ∀ n, out ≠ .node n) (hlast : last.Extends later) (hserves : column.Serves l r) :
          SweptOne conjoin depth last l r branch column [] column none :=
        sweptOne_apart hserves fun _ _ hp => by
          obtain ⟨n, hn, -⟩ := hp.node h (hcomes hlast)
          exact hout n hn
      cases out with
      | node n =>
          have hconjunct (hlast : last.Extends later) := (hcomes hlast).conjunct h
          have hends (hlast : last.Extends later) := (hcomes hlast).holds h
          dsimp only
          split
          · rename_i hsame
            refine Ensures.pure hvalid' fun hlast hserves => swept_covered h hbranch hserves hlive ?_
            have hback := (sameType_comm _ _).trans hsame
            exact (subtypeOf_of_sameType h (hends hlast).1 (hconjunct hlast).1 hback).trans (hconjunct hlast).2.2
          split
          · rename_i hsame
            refine hpass later hvalid' hext ⟨column.branch, none⟩ [column.branch] none fun hlast hserves =>
              sweptOne_settled h hbranch hserves ?_
            have hback := (sameType_comm _ _).trans hsame
            exact (subtypeOf_of_sameType h (hends hlast).2 (hconjunct hlast).1 hback).trans (hconjunct hlast).2.1
          · exact hpass later hvalid' hext column [] (some n) fun hlast hserves =>
              sweptOne_parked h hbranch hserves (hcomes hlast)
      | disjoint d => exact hpass later hvalid' hext column [] none (hapart (by simp))
      | orthogonal => exact hpass later hvalid' hext column [] none (hapart (by simp))

/-- What rows leave of columns: what was parked, and what the branches have in common with those of live columns, is found
inside the result. -/
structure Gathers (conjoin : Meet) (depth : Nat) (last : Space) (l r rows : List Node) (columns : List Column)
    (out : List Node) : Prop where
  sound : ∀ q ∈ out, BelowSome l q ∧ BelowSome r q
  parked : ∀ n ∈ parkedOf columns, BelowSome out n
  pairs : ∀ a ∈ rows, ∀ b ∈ liveOf columns, ∀ p, Comes conjoin depth last a b (.node p) → BelowSome out p

theorem gathers_nil {columns : List Column} (hserves : ∀ column ∈ columns, column.Serves l r) :
    Gathers conjoin depth last l r [] columns (parkedOf columns) where
  sound := by
    intro q hq
    obtain ⟨column, hcolumn, hq⟩ := List.mem_flatMap.mp hq
    obtain ⟨hsub, hcovered⟩ := (hserves column hcolumn).parked q hq
    exact ⟨hcovered, column.branch, (hserves column hcolumn).branch, hsub⟩
  parked := fun _ hn => belowSome_of_mem hn
  pairs := List.forall_mem_nil _

/-- One row before the others. -/
theorem Swept.gathers (h : Dependable conjoin depth last) {rest out : List Node} {columns : List Column} {row : Row}
    (hrow : Swept conjoin depth last l r branch columns row)
    (hrest : Gathers conjoin depth last l r rest row.after out) :
    Gathers conjoin depth last l r (branch :: rest) columns (row.settled ++ out) := by
  have hlater : ∀ q ∈ row.settled ++ parkedOf row.after, BelowSome (row.settled ++ out) q :=
    List.forall_mem_append.mpr ⟨fun q hq => belowSome_of_mem (List.mem_append_left _ hq),
      fun q hq => (hrest.parked q hq).mono fun _ => List.mem_append_right _⟩
  refine ⟨List.forall_mem_append.mpr ⟨hrow.settled, hrest.sound⟩, fun n hn => (hrow.parked n hn).trans hlater, ?_⟩
  intro a ha b hb p hp
  rcases List.mem_cons.mp ha with rfl | ha
  · exact (hrow.pairs b hb p hp).trans hlater
  -- Later rows pass over the column if it is settled; then its branch is in the result.
  · rcases hrow.live b hb with hb | hcovered
    · exact (hrest.pairs a ha b hb p hp).mono fun _ => List.mem_append_right _
    · exact (hp.conjunct h).2.2.belowSome (hcovered.mono fun _ => List.mem_append_left _)

theorem meetRows_gathers (h : Dependable conjoin depth last) {rows : List Node} (hrows : ∀ a ∈ rows, a ∈ l)
    {columns : List Column} (hvalid : space.Valid) (hbranches : Branches False depth space rows)
    (hfit : ∀ column ∈ columns, column.Fit False depth space) :
    Ensures False False space (meetRows conjoin rows columns) fun later out => last.Extends later →
      (∀ column ∈ columns, column.Serves l r) → Gathers conjoin depth last l r rows columns out := by
  induction rows generalizing space columns with
  | nil => exact Ensures.pure hvalid fun _ => gathers_nil
  | cons branch rest ih =>
      obtain ⟨hbranch, hrest⟩ := List.forall_mem_cons.mp hrows
      have hfirst : Branches False depth space [branch] := hbranches.subset (by simp)
      have hothers : Branches False depth space rest := hbranches.subset (by simp +contextual)
      unfold meetRows
      refine ((meetRow_spec h.spec hvalid hfirst hfit).and (meetRow_swept (r := r) h hbranch hvalid hfirst hfit)).bind ?_
      rintro later row hvalid' hext ⟨hcrossed, hswept⟩
      change Ensures False False later (do return row.settled ++ (← meetRows conjoin rest row.after)) _
      refine (ih hrest hvalid' (hothers.extends hext) hcrossed.fit).bind ?_
      intro final out hfinal hext' hout
      refine Ensures.pure hfinal fun hlast hserves => ?_
      have hrow := hswept (hlast.trans hext') hserves
      exact hrow.gathers h (hout hlast hrow.serves)

/-- What two lists of branches have in common, pair by pair, is found inside what they intersect to, and every branch of
that lies inside one of either list. -/
theorem intersectBranches_gathers (h : Dependable conjoin depth last) (hvalid : space.Valid)
    (hl : Branches False depth space l) (hr : Branches False depth space r) :
    Ensures False False space (intersectBranches conjoin l r) fun later out => last.Extends later →
      (∀ q ∈ out, BelowSome l q ∧ BelowSome r q) ∧
        ∀ a ∈ l, ∀ b ∈ r, ∀ p, Comes conjoin depth last a b (.node p) → BelowSome out p := by
  have hserves : ∀ column ∈ freshColumns r, column.Serves l r := by
    intro column hcolumn
    obtain ⟨node, hnode, rfl⟩ := List.mem_map.mp hcolumn
    exact ⟨hnode, List.forall_mem_nil _⟩
  refine (meetRows_gathers (r := r) h (fun _ ha => ha) hvalid hl (fit_freshColumns hr)).imp fun later out _ _ hout hlast => ?_
  have hgathers := hout hlast hserves
  refine ⟨hgathers.sound, fun a ha b hb => hgathers.pairs a ha b ?_⟩
  rwa [liveOf_freshColumns]

-- ---------------------------------------------------------------------------
-- Lists of branches
-- ---------------------------------------------------------------------------

/-- Branches are conjoined as any nodes are. -/
theorem conjoinBy_of_not_union (ha : a.kind ≠ .union) (hb : b.kind ≠ .union) (meet : Meet) :
    conjoinBy meet (meetUnions meet) a b = conjoinBranches meet a b := by
  have hmorphs {x y : Node} (hx : x.kind ≠ .union) : meetUnions meet x y = meetMorphs meet x y := by
    unfold meetUnions
    split
    · rename_i branches ordered hc
      exact absurd (by rw [kind, hc]; rfl) hx
    · rfl
  rw [conjoinBranches, conjoinBy, conjoinBy, meetBy, meetBy, hmorphs ha, hmorphs hb]

/-- Branches of a space can be conjoined to a depth that they nest to. -/
theorem branches_of_nesting (hholds : ∀ n ∈ nodes, space.Holds n ∧ n.kind.isBranch = true)
    (hnesting : ∀ n ∈ nodes, n.nesting ≤ depth) : Branches False depth space nodes where
  within := fun n hn => within_of_nesting (hholds n hn).1 (Nat.lt_succ_of_le (hnesting n hn))
  notUnions := fun n hn => branch_not_union (hholds n hn).2

/-- What conjoining two branches comes to is what they come to at any greater depth. -/
theorem comes_of_conjoin {asked : Space} {out : Intersected} (hvalid : asked.Valid)
    (ha : asked.Holds a ∧ a.kind.isBranch = true) (hb : asked.Holds b ∧ b.kind.isBranch = true)
    (hnesting : a.nesting ≤ depth) (hnesting' : b.nesting ≤ depth) (hout : ((a.conjoin b).exec asked).1 = .ok out)
    (hext : last.Extends ((a.conjoin b).exec asked).2) :
    Comes (conjoinBranches (conjoinWithin depth)) depth last a b out := by
  have hdeepens := conjoinBranches_deepens (conjoinWithin_deepens (Nat.max_le.mpr ⟨hnesting, hnesting'⟩)) a b
  have hconjoin : (a.conjoin b).exec asked =
      (conjoinBranches (conjoinWithin (max a.nesting b.nesting)) a b).exec asked := by
    rw [conjoin, SpaceM.exec_bind, exec_adopt_home (hvalid.home b hb.1)]
    dsimp only
    rw [conjoinHere, conjoinWithin, conjoinBy_of_not_union (branch_not_union ha.2) (branch_not_union hb.2)]
  rw [hconjoin] at hout hext
  have hsane (reason : InternalError) : ((conjoinBranches (conjoinWithin (max a.nesting b.nesting)) a b).exec asked).1 ≠
      .error (.internal reason) := fun herror => by cases hout.symm.trans herror
  rw [← hdeepens.exec_eq hsane] at hout hext
  have hbranches : ∀ n ∈ [a, b], asked.Holds n ∧ n.kind.isBranch = true :=
    List.forall_mem_cons.mpr ⟨ha, List.forall_mem_singleton.mpr hb⟩
  exact ⟨asked, hvalid, branches_of_nesting hbranches (by simp [hnesting, hnesting']), hext, hout⟩

/-- A depth that was enough for a run can be exceeded. -/
theorem exec_intersectBranches {depth' : Nat} (hle : depth ≤ depth') {result : List Node}
    (hresult : ((intersectBranches (conjoinBranches (conjoinWithin depth)) l r).exec space).1 = .ok result) :
    (intersectBranches (conjoinBranches (conjoinWithin depth')) l r).exec space =
      (intersectBranches (conjoinBranches (conjoinWithin depth)) l r).exec space := by
  have hdeepens := meetRows_deepens (conjoinBranches_deepens (conjoinWithin_deepens hle)) l (freshColumns r)
  refine hdeepens.exec_eq fun reason herror => ?_
  cases hresult.symm.trans herror

/-- Intersecting two lists of branches covers every pair. Whatever conjoining a branch of the first list with one of the
second comes to, at any time of the space, is a subtype of some branch of the result; and each branch of the result is
a subtype of one of the first list and of one of the second. -/
theorem intersectBranches_covers {adopting : Prop} (hblind : BlindToSign) (hreachable : space.Reachable adopting)
    (hl : ∀ a ∈ l, space.Holds a ∧ a.kind.isBranch = true) (hr : ∀ b ∈ r, space.Holds b ∧ b.kind.isBranch = true)
    {result : List Node}
    (hresult : ((intersectBranches (conjoinBranches (conjoinWithin depth)) l r).exec space).1 = .ok result)
    (hlast : last.Valid) (hregular : last.Regular)
    (hlater : last.Extends ((intersectBranches (conjoinBranches (conjoinWithin depth)) l r).exec space).2) :
    (∀ a ∈ l, ∀ b ∈ r, ∀ (asked : Space) (p : Node), asked.Valid → asked.Holds a → asked.Holds b →
        ((a.conjoin b).exec asked).1 = .ok (.node p) → last.Extends ((a.conjoin b).exec asked).2 →
          ∃ q ∈ result, p.SubtypeOf q) ∧
      ∀ q ∈ result, (∃ a ∈ l, q.SubtypeOf a) ∧ ∃ b ∈ r, q.SubtypeOf b := by
  let deeper := max depth (max (listNesting l) (listNesting r))
  have hnesting {nodes : List Node} (hle : listNesting nodes ≤ deeper) (n : Node) (hn : n ∈ nodes) :
      n.nesting ≤ deeper :=
    (Nat.le_of_lt_succ (listNesting_lt.mp (Nat.lt_succ_self _) n hn)).trans hle
  have hnestingL := @hnesting l ((le_max_left _ _).trans (le_max_right _ _))
  have hnestingR := @hnesting r ((le_max_right _ _).trans (le_max_right _ _))
  have hrun := exec_intersectBranches (le_max_left depth _ : depth ≤ deeper) hresult
  rw [← hrun] at hresult hlater
  have h := conjoinBranches_dependable hblind hlast hregular deeper
  obtain ⟨hsound, hcovers⟩ := (intersectBranches_gathers h hreachable.valid (branches_of_nesting hl hnestingL)
    (branches_of_nesting hr hnestingR)).result result hresult hlater
  refine ⟨fun a ha b hb asked p hasked hheld hheld' hp hext => hcovers a ha b hb p ?_, hsound⟩
  exact comes_of_conjoin hasked ⟨hheld, (hl a ha).2⟩ ⟨hheld', (hr b hb).2⟩ (hnestingL a ha) (hnestingR b hb) hp hext

omit [Behaviour] in
/-- Multiples of 6 or all numbers, intersected with multiples of 4: the multiples of 4 alone are left, and what they have in
common with the multiples of 6 is a subtype of them. -/
theorem dropped_multiples_covered : ∃ (space : Space) (sixes numbers fours p : Node) (result : List Node),
    @Space.Reachable Stock.behaviour True space ∧
      ((intersectBranches (@conjoinBranches Stock.behaviour (@conjoinWithin Stock.behaviour 0)) [sixes, numbers]
        [fours]).exec space).1 = .ok result ∧
      result.map typeId = [fours.typeId] ∧ (∃ q ∈ result, @SubtypeOf Stock.behaviour p q) ∧
        ∀ q ∈ result, @SubtypeOf Stock.behaviour q fours := by
  let _ := Stock.behaviour
  let multiples (n : Nat) : Definition := .map [("domain", .string "number"), ("divisor", .number (.ofNat n))]
  let intersecting (l r : List Node) := intersectBranches (conjoinBranches (conjoinWithin 0)) l r
  let program : SpaceM Bool := do
    let sixes ← (multiples 6).readRoot
    let numbers ← (Definition.string "number").readRoot
    let fours ← (multiples 4).readRoot
    let result ← intersecting [sixes, numbers] [fours]
    let out ← sixes.conjoin fours
    let last ← get
    return decide (out.isNode = true ∧ last.Regular ∧ result.map typeId = [fours.typeId] ∧
      ∀ n ∈ [sixes, numbers, fours], n.kind.isBranch = true ∧ n.nesting ≤ 0)
  have hyields : program.yields (.new 0 .standard) (fun b => b) = true := by
    decide +kernel
  obtain ⟨sixes, hsixes, hyields⟩ := SpaceM.yields_bind.mp hyields
  obtain ⟨numbers, hnumbers, hyields⟩ := SpaceM.yields_bind.mp hyields
  obtain ⟨fours, hfours, hyields⟩ := SpaceM.yields_bind.mp hyields
  obtain ⟨result, hresult, hyields⟩ := SpaceM.yields_bind.mp hyields
  obtain ⟨out, hout, hyields⟩ := SpaceM.yields_bind.mp hyields
  rw [SpaceM.yields_get, SpaceM.yields_pure, decide_eq_true_eq] at hyields
  obtain ⟨hnode, hregular, htypes, hbranches⟩ := hyields
  obtain ⟨p, rfl⟩ := Intersected.isNode_iff.mp hnode
  obtain ⟨hfirst, -, hheld⟩ := (@Space.Reachable.new _ True 0 .standard).read (d := multiples 6) (List.forall_mem_nil _)
  obtain ⟨hsecond, hext, hheld'⟩ := hfirst.read (d := .string "number") (List.forall_mem_nil _)
  obtain ⟨hspace, hext', hheld''⟩ := hsecond.read (d := multiples 4) (List.forall_mem_nil _)
  have hheldAll := List.forall_mem_cons.mpr ⟨hext'.holds sixes (hext.holds sixes (hheld sixes hsixes)),
    List.forall_mem_cons.mpr ⟨hext'.holds numbers (hheld' numbers hnumbers),
      List.forall_mem_singleton.mpr (hheld'' fours hfours)⟩⟩
  have hl : [sixes, numbers] ⊆ [sixes, numbers, fours] := List.subset_append_left [sixes, numbers] [fours]
  have hr : [fours] ⊆ [sixes, numbers, fours] := List.subset_append_right [sixes, numbers] [fours]
  have hall := fun n hn => And.intro (hheldAll n hn) (hbranches n hn).1
  have hlevel := branches_of_nesting hall fun n hn => (hbranches n hn).2
  have hmet := @intersectBranches_spec _ False _ _ _ _
    (conjoinBranches_spec (conjoinWithin_spec False.elim 0) False.elim) _ _ hspace.valid (hlevel.subset hl)
    (hlevel.subset hr)
  have hsixes' := hmet.extension.holds sixes (hheldAll sixes (hl (by simp)))
  have hfours' := hmet.extension.holds fours (hheldAll fours (hr (by simp)))
  have hlast := @conjoin_always _ False _ _ _ hsixes' (.inl hfours') _ hmet.valid (.refl _)
  obtain ⟨hcovers, hsound⟩ := intersectBranches_covers Stock.blindToSign hspace (fun n hn => hall n (hl hn))
    (fun n hn => hall n (hr hn)) hresult hlast.valid hregular hlast.extension
  have hcovered := hcovers sixes (by simp) fours (by simp) _ p hmet.valid hsixes' hfours' hout (.refl _)
  refine ⟨_, sixes, numbers, fours, p, result, hspace, hresult, htypes, hcovered, fun q hq => ?_⟩
  obtain ⟨n, hn, hsub⟩ := (hsound q hq).2
  exact List.mem_singleton.mp hn ▸ hsub

end Node

end SchemaAlgebra
