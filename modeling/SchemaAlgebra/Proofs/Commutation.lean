-- SUMMARY: A union of morphs and a union without any: in either order, intersecting them gives the same.
import SchemaAlgebra.Proofs.Congruence

/-!
# Commutation

The algorithm for unions treats its operands differently: branches of the first are
rows, branches of the second are columns, and what a row and a column have in common
is parked in the column, where it is lost if a later row covers the column. So the order
matters to branches inside one another, of which the inner one is a morph.

Where one operand has only morphs as branches and the other has none, nothing of value is
lost: whichever operand the rows come from, each morph is intersected with the other
branches up to the first that contains it, and stands for itself from then on.
-/

namespace SchemaAlgebra

-- ---------------------------------------------------------------------------
-- Computations on the way to a space
-- ---------------------------------------------------------------------------

namespace SpaceM

variable {α β : Type} {final : Space} {P Q : α → Prop} {x : SpaceM α}

/-- What a computation gives wherever it starts, if it ends in a given space or on the way there. -/
structure Along (final : Space) (x : SpaceM α) (Q : α → Prop) : Prop where
  grows : x.Grows
  result : ∀ space : Space, space.Tidy → final.Extends (x.exec space).2 → ∀ a, (x.exec space).1 = .ok a → Q a

namespace Along

theorem pure {a : α} (h : Q a) : Along final (Pure.pure a) Q :=
  ⟨.pure a, fun _ _ _ _ ha => by cases ha; exact h⟩

theorem throw (error : SchemaError) : Along final (MonadExcept.throw error) Q :=
  ⟨.throw error, fun _ _ _ _ ha => by cases ha⟩

theorem imp (h : Along final x P) (hpq : ∀ a, P a → Q a) : Along final x Q :=
  ⟨h.grows, fun space htidy hext a ha => hpq a (h.result space htidy hext a ha)⟩

theorem bind {f : α → SpaceM β} {R : β → Prop} (h : Along final x P) (hf : ∀ a, (f a).Grows)
    (hpr : ∀ a, P a → Along final (f a) R) : Along final (x >>= f) R where
  grows := h.grows.bind hf
  result := by
    intro space htidy hext b hb
    obtain ⟨hmid, -⟩ := h.grows space htidy
    have hresult := h.result space htidy
    rw [exec_bind] at hext hb
    generalize x.exec space = first at hmid hresult hext hb
    rcases first with ⟨error | a, mid⟩
    · cases hb
    · exact (hpr a (hresult (hext.trans (hf a mid hmid).2) a rfl)).result mid hmid hext b hb

/-- Whatever the first steps give. -/
theorem after {f : α → SpaceM β} {R : β → Prop} (hx : x.Grows) (hf : ∀ a, Along final (f a) R) :
    Along final (x >>= f) R :=
  have hany : Along final x fun _ => True := ⟨hx, fun _ _ _ _ _ => trivial⟩
  hany.bind (fun a => (hf a).grows) fun a _ => hf a

theorem intern {content : Content Node} (hvalid : final.Valid) :
    Along final (internPlain content) fun n => final.Holds n ∧ n.kind = content.kind where
  grows := .intern content .none
  result := by
    intro space htidy hext n hn
    cases hn
    obtain ⟨hholds, hid, -⟩ := Space.intern_holds htidy hext
    rw [(hvalid.written _ hholds).id] at hid
    exact ⟨hholds, Node.kind_eq_of_identifier hid⟩

end Along

end SpaceM

/-- The type of the node that an outcome is. -/
def Intersected.typeId? : Intersected → Option String
  | .node n => some n.typeId
  | _ => none

namespace Node

open Space (Twins Abreast)
open SpaceM (Along)

-- ---------------------------------------------------------------------------
-- Columns
-- ---------------------------------------------------------------------------

/-- What a row does to a column that is not settled, by what it has in common with it: it is parked there itself, it
settles the column, or it parks what they have in common. -/
theorem meetRow_live {final : Space} {conjoin : Meet} {branch : Node} {column : Column} {rest : List Column}
    {P : Intersected → Prop} {Q : Row → Prop} (hgrows : ∀ l r, (conjoin l r).Grows)
    (hlive : column.parked.isSome = true) (hne : branch.typeId ≠ column.branch.typeId)
    (h : Along final (conjoin branch column.branch) P)
    (hinside : ∀ n, P (.node n) → n.typeId = branch.typeId → Q ⟨[], (column, some branch) :: rest.map (·, none), true⟩)
    (hcovers : ∀ n, P (.node n) → n.typeId = column.branch.typeId → Along final (meetRow conjoin branch rest) fun row =>
      Q ⟨[column.branch] ++ row.settled, (⟨column.branch, none⟩, none) :: row.columns, row.absorbed⟩)
    (hparks : ∀ out candidate, P out → out.typeId? = candidate.map typeId → (∀ n ∈ candidate, out = .node n) →
      candidate.map typeId ≠ some branch.typeId → candidate.map typeId ≠ some column.branch.typeId →
      Along final (meetRow conjoin branch rest) fun row =>
        Q ⟨[] ++ row.settled, (column, if row.absorbed then none else candidate) :: row.columns, row.absorbed⟩) :
    Along final (meetRow conjoin branch (column :: rest)) Q := by
  have hnotNone : column.parked.isNone = false := by
    rw [← Option.not_isSome, hlive]
    rfl
  have hapart : branch.sameType column.branch = false := beq_eq_false_iff_ne.mpr hne
  have hnone (out : Intersected) (hout : P out) (htype : out.typeId? = none) :=
    hparks out none hout htype (fun n hn => by cases hn) (fun heq => by cases heq) fun heq => by cases heq
  unfold meetRow
  dsimp only
  rw [if_neg (by simp [hnotNone]), if_neg (by simp [hapart])]
  refine h.bind (fun out => ?_) fun out hout => ?_
  · split
    · split
      · exact .pure _
      · split <;> exact .bind (meetRow_inherits .grows hgrows branch rest) fun _ => .pure _
    · exact .bind (meetRow_inherits .grows hgrows branch rest) fun _ => .pure _
  · cases out with
    | node n =>
        dsimp only
        split
        · rename_i hsame
          exact .pure (hinside n hout (eq_of_beq hsame))
        rename_i hother
        split
        · rename_i hsame
          refine (hcovers n hout (eq_of_beq hsame)).bind (fun _ => .pure _) fun row hrow => .pure ?_
          rwa [ite_self]
        · rename_i hother'
          refine (hparks _ (some n) hout rfl ?_ ?_ ?_).bind (fun _ => .pure _) fun _ => .pure
          · rintro _ ⟨⟩
            rfl
          · exact fun heq => hother (beq_iff_eq.mpr (Option.some.inj heq))
          · exact fun heq => hother' (beq_iff_eq.mpr (Option.some.inj heq))
    | disjoint d => exact (hnone _ hout rfl).bind (fun _ => .pure _) fun _ => .pure
    | orthogonal => exact (hnone _ hout rfl).bind (fun _ => .pure _) fun _ => .pure

-- ---------------------------------------------------------------------------
-- What morphs have in common with other nodes
-- ---------------------------------------------------------------------------

/-- What intersecting a morph with another node comes to: the type of a node, or none. -/
abbrev Outcomes := Node → Node → Option String → Prop

section

variable {F G : Outcomes} {morph other : Node} {others : List Node} {x : Option String} {type : String}

/-- One of several nodes contains a morph: what they have in common is the morph. -/
def Contained (F : Outcomes) (others : List Node) (morph : Node) : Prop :=
  ∃ other ∈ others, F morph other (some morph.typeId)

/-- The types of what a morph has in common with several nodes: that of the morph alone where one of them contains
it. -/
def Common (F : Outcomes) (others : List Node) (morph : Node) (type : String) : Prop :=
  Contained F others morph ∧ type = morph.typeId ∨
    ¬ Contained F others morph ∧ ∃ other ∈ others, F morph other (some type)

/-- A morph was intersected with enough nodes to know what it has in common with all of them. -/
def Explored (F : Outcomes) (others : List Node) (morph : Node) : Prop :=
  Contained F others morph ∨ ∀ other ∈ others, ∃ x, F morph other x

theorem contained_head (h : F morph other (some morph.typeId)) : Contained F (other :: others) morph :=
  ⟨other, List.mem_cons_self, h⟩

theorem common_head (h : F morph other (some morph.typeId)) :
    Common F (other :: others) morph type ↔ type = morph.typeId :=
  ⟨fun hcommon => hcommon.elim And.right fun hnot => absurd (contained_head h) hnot.1,
    fun htype => .inl ⟨contained_head h, htype⟩⟩

section

variable (h : F morph other x) (hne : x ≠ some morph.typeId)
  (hunique : ∀ y z, F morph other y → F morph other z → y = z)

include h hne hunique

theorem contained_tail : Contained F (other :: others) morph ↔ Contained F others morph := by
  constructor
  · rintro ⟨node, hnode, hcontains⟩
    rcases List.mem_cons.mp hnode with rfl | hnode
    · exact absurd (hunique _ _ h hcontains) hne
    · exact ⟨node, hnode, hcontains⟩
  · rintro ⟨node, hnode, hcontains⟩
    exact ⟨node, List.mem_cons_of_mem other hnode, hcontains⟩

theorem explored_tail (hexplored : Explored F others morph) : Explored F (other :: others) morph :=
  hexplored.imp (contained_tail h hne hunique).mpr fun hothers => List.forall_mem_cons.mpr ⟨⟨x, h⟩, hothers⟩

theorem common_tail : Common F (other :: others) morph type ↔
    Common F others morph type ∨ ¬ Contained F others morph ∧ x = some type := by
  have hhead : F morph other (some type) ↔ x = some type := ⟨hunique _ _ h, fun hx => hx ▸ h⟩
  unfold Common
  rw [contained_tail h hne hunique, List.exists_mem_cons_iff, hhead]
  by_cases hcontained : Contained F others morph
  · simp [hcontained]
  · simp [hcontained, or_comm]

end

theorem contained_of_contained (h : ∀ other ∈ others, ∀ x y, F morph other x → G morph other y → x = y)
    (hG : Explored G others morph) (hcontained : Contained F others morph) : Contained G others morph := by
  obtain ⟨other, hother, hcontains⟩ := hcontained
  rcases hG with hG | hknown
  · exact hG
  · obtain ⟨y, hy⟩ := hknown other hother
    exact ⟨other, hother, by rwa [h other hother _ _ hcontains hy]⟩

/-- Where outcomes agree for each of several nodes, a morph has the same in common with all of them. -/
theorem common_of_common (h : ∀ other ∈ others, ∀ x y, F morph other x → G morph other y → x = y)
    (hF : Explored F others morph) (hG : Explored G others morph) (hcommon : Common F others morph type) :
    Common G others morph type := by
  rcases hcommon with ⟨hcontained, htype⟩ | ⟨hnot, other, hother, hfound⟩
  · exact .inl ⟨contained_of_contained h hG hcontained, htype⟩
  · have hnot' : ¬ Contained G others morph := fun hcontained =>
      hnot (contained_of_contained (fun p hp x y hx hy => (h p hp y x hy hx).symm) hF hcontained)
    obtain ⟨y, hy⟩ := hG.resolve_left hnot' other hother
    exact .inr ⟨hnot', other, hother, by rwa [h other hother _ _ hfound hy]⟩

end

-- ---------------------------------------------------------------------------
-- Morphs as rows
-- ---------------------------------------------------------------------------

section

variable {F : Outcomes} {final : Space} {conjoin : Meet} {morph other : Node}

/-- A morph that is alive in a space. -/
def IsMorphOf (final : Space) (node : Node) : Prop := final.Holds node ∧ node.kind = .morph

/-- What a morph and another node come to on the way to a space, in either order. -/
structure Crosses (F : Outcomes) (final : Space) (conjoin : Meet) (morph other : Node) : Prop where
  row : Along final (conjoin morph other) fun out =>
    F morph other out.typeId? ∧ ∀ n, out = .node n → IsMorphOf final n
  column : Along final (conjoin other morph) fun out =>
    F morph other out.typeId? ∧ ∀ n, out = .node n → IsMorphOf final n
  unique : ∀ x y, F morph other x → F morph other y → x = y
  apart : morph.typeId ≠ other.typeId
  foreign : ¬ F morph other (some other.typeId)

/-- What a morph does to columns of other nodes: what it has in common with them is parked. -/
structure MorphRow (F : Outcomes) (final : Space) (morph : Node) (columns : List Column) (row : Row) : Prop where
  settled : row.settled = []
  kept : row.columns.map Prod.fst = columns
  absorbed : row.absorbed = true ↔ Contained F (columns.map Column.branch) morph
  explored : Explored F (columns.map Column.branch) morph
  parked : ∀ type, type ∈ (parkedOf row.after).map typeId ↔
    type ∈ (parkedOf columns).map typeId ∨ Common F (columns.map Column.branch) morph type
  morphs : (∀ n ∈ parkedOf columns, IsMorphOf final n) → ∀ n ∈ parkedOf row.after, IsMorphOf final n

theorem parked_park {column : Column} (hlive : column.parked.isSome = true) (candidate : Option Node) :
    (column.park candidate).parked.getD [] = column.parked.getD [] ++ candidate.toList := by
  obtain ⟨branch, parked⟩ := column
  cases parked with
  | none => cases hlive
  | some nodes => rfl

/-- A column that does not contain the morph, and the columns to the right of it. -/
theorem MorphRow.cons {column : Column} {rest : List Column} {row : Row} (h : MorphRow F final morph rest row)
    (hcross : Crosses F final conjoin morph column.branch) (hlive : column.parked.isSome = true)
    {candidate : Option Node} (hcandidate : F morph column.branch (candidate.map typeId))
    (hmorph : ∀ n ∈ candidate, IsMorphOf final n) (hne : candidate.map typeId ≠ some morph.typeId) :
    MorphRow F final morph (column :: rest)
      ⟨[] ++ row.settled, (column, if row.absorbed then none else candidate) :: row.columns, row.absorbed⟩ where
  settled := h.settled
  kept := congrArg (column :: ·) h.kept
  absorbed := h.absorbed.trans (contained_tail hcandidate hne hcross.unique).symm
  explored := explored_tail hcandidate hne hcross.unique h.explored
  parked := by
    intro type
    have hafter : Row.after ⟨[] ++ row.settled, row.columns, row.absorbed⟩ = row.after := rfl
    have hparked := h.parked type
    rw [List.map_cons, common_tail hcandidate hne hcross.unique, ← h.absorbed, Row.after_cons, parkedOf_cons,
      parkedOf_cons, parked_park hlive, hafter]
    simp only [List.map_append, List.mem_append, hparked]
    cases habsorbed : row.absorbed <;> cases candidate <;> simp [eq_comm] <;> grind
  morphs := by
    have hafter : Row.after ⟨[] ++ row.settled, row.columns, row.absorbed⟩ = row.after := rfl
    rw [Row.after_cons, parkedOf_cons, parkedOf_cons, parked_park hlive, hafter]
    simp only [List.forall_mem_append]
    rintro ⟨hcolumn, hrest⟩
    refine ⟨⟨hcolumn, ?_⟩, h.morphs hrest⟩
    split
    · exact List.forall_mem_nil _
    · exact fun n hn => hmorph n (Option.mem_toList.mp hn)

/-- A column that contains the morph: the columns to the right of it are passed over. -/
theorem MorphRow.contained {column : Column} {rest : List Column}
    (hlive : column.parked.isSome = true) (hmorph : IsMorphOf final morph)
    (hcontains : F morph column.branch (some morph.typeId)) :
    MorphRow F final morph (column :: rest) ⟨[], (column, some morph) :: rest.map (·, none), true⟩ where
  settled := rfl
  kept := by rw [List.map_cons, List.map_map]; exact congrArg (column :: ·) (List.map_id rest)
  absorbed := ⟨fun _ => contained_head hcontains, fun _ => rfl⟩
  explored := .inl (contained_head hcontains)
  parked := by
    intro type
    rw [List.map_cons, common_head hcontains, Row.after_cons, Row.after_idle, parkedOf_cons, parkedOf_cons,
      parked_park hlive]
    simp only [Option.toList_some, List.map_append, List.map_cons, List.map_nil, List.mem_append, List.mem_singleton]
    tauto
  morphs := by
    rw [Row.after_cons, Row.after_idle, parkedOf_cons, parkedOf_cons, parked_park hlive]
    simp only [List.forall_mem_append]
    rintro ⟨hcolumn, hrest⟩
    exact ⟨⟨hcolumn, List.forall_mem_singleton.mpr hmorph⟩, hrest⟩

theorem meetRow_morph {columns : List Column} (hmorph : IsMorphOf final morph)
    (hlive : ∀ c ∈ columns, c.parked.isSome = true) (hgrows : ∀ l r, (conjoin l r).Grows)
    (hcross : ∀ c ∈ columns, Crosses F final conjoin morph c.branch) :
    Along final (meetRow conjoin morph columns) (MorphRow F final morph columns) := by
  induction columns with
  | nil =>
      refine .pure ⟨rfl, rfl, ?_, .inr (List.forall_mem_nil _), fun type => ?_, fun h => h⟩
      · simp [Contained]
      · simp [Common, Contained, Row.after]
  | cons column rest ih =>
      obtain ⟨hcolumn, hrest⟩ := List.forall_mem_cons.mp hlive
      obtain ⟨hcrossColumn, hcrossRest⟩ := List.forall_mem_cons.mp hcross
      have ih := ih hrest hcrossRest
      refine meetRow_live hgrows hcolumn hcrossColumn.apart hcrossColumn.row ?_ ?_ ?_
      · intro n hn htype
        refine .contained hcolumn hmorph ?_
        rw [← htype]
        exact hn.1
      · intro n hn htype
        refine absurd ?_ hcrossColumn.foreign
        rw [← htype]
        exact hn.1
      · intro out candidate hout htype hnode hne _
        rw [htype] at hout
        exact ih.imp fun row hrow =>
          hrow.cons hcrossColumn hcolumn hout.1 (fun n hn => hout.2 n (hnode n hn)) hne

theorem MorphRow.map_branch {columns : List Column} {row : Row} (h : MorphRow F final morph columns row) :
    row.after.map Column.branch = columns.map Column.branch := by
  rw [← h.kept, Row.after, List.map_map, List.map_map]
  exact List.map_congr_left fun _ _ => rfl

theorem MorphRow.live {columns : List Column} {row : Row} (h : MorphRow F final morph columns row)
    (hlive : ∀ c ∈ columns, c.parked.isSome = true) : ∀ c ∈ row.after, c.parked.isSome = true := by
  intro c hc
  obtain ⟨entry, hentry, rfl⟩ := List.mem_map.mp hc
  rw [Column.park_isSome]
  exact hlive _ (h.kept ▸ List.mem_map_of_mem hentry)

/-- Branches that are what morphs have in common with other nodes. -/
structure InCommon (F : Outcomes) (final : Space) (morphs others found : List Node) : Prop where
  explored : ∀ morph ∈ morphs, Explored F others morph
  types : ∀ type, type ∈ found.map typeId ↔ ∃ morph ∈ morphs, Common F others morph type
  morphs : ∀ n ∈ found, IsMorphOf final n

theorem meetRows_morphs {morphs : List Node} {columns : List Column} (hmorphs : ∀ m ∈ morphs, IsMorphOf final m)
    (hlive : ∀ c ∈ columns, c.parked.isSome = true) (hgrows : ∀ l r, (conjoin l r).Grows)
    (hcross : ∀ m ∈ morphs, ∀ other ∈ columns.map Column.branch, Crosses F final conjoin m other) :
    Along final (meetRows conjoin morphs columns) fun found =>
      (∀ m ∈ morphs, Explored F (columns.map Column.branch) m) ∧
        (∀ type, type ∈ found.map typeId ↔ type ∈ (parkedOf columns).map typeId ∨
          ∃ m ∈ morphs, Common F (columns.map Column.branch) m type) ∧
        ((∀ n ∈ parkedOf columns, IsMorphOf final n) → ∀ n ∈ found, IsMorphOf final n) := by
  induction morphs generalizing columns with
  | nil =>
      refine .pure ⟨List.forall_mem_nil _, fun type => ?_, fun h => h⟩
      simp [parkedOf]
  | cons morph rest ih =>
      obtain ⟨hmorph, hrest⟩ := List.forall_mem_cons.mp hmorphs
      obtain ⟨hcrossMorph, hcrossRest⟩ := List.forall_mem_cons.mp hcross
      unfold meetRows
      refine (meetRow_morph hmorph hlive hgrows fun c hc => hcrossMorph _ (List.mem_map_of_mem hc)).bind
        (fun _ => .bind (meetRows_inherits .grows hgrows _ _) fun _ => .pure _) fun row hrow => ?_
      have hbranches := hrow.map_branch
      have ih := ih hrest (hrow.live hlive) (by rw [hbranches]; exact hcrossRest)
      rw [hbranches] at ih
      refine ih.bind (fun _ => .pure _) ?_
      rintro found ⟨hexplored, htypes, hfound⟩
      rw [hrow.settled, List.nil_append]
      refine .pure ⟨List.forall_mem_cons.mpr ⟨hrow.explored, hexplored⟩, fun type => ?_, fun hparked =>
        hfound (hrow.morphs hparked)⟩
      rw [htypes, hrow.parked, List.exists_mem_cons_iff, or_assoc]

-- ---------------------------------------------------------------------------
-- Morphs as columns
-- ---------------------------------------------------------------------------

/-- What another node does to the column of a morph, with the branches that it settles. -/
inductive Passed (F : Outcomes) (final : Space) (other : Node) : Column → List Node → Column → Prop where
  /-- The column was settled before. -/
  | consumed (morph : Node) : Passed F final other ⟨morph, none⟩ [] ⟨morph, none⟩
  /-- The node contains the morph, and what was parked is lost. -/
  | contained {morph : Node} {nodes : List Node} (h : F morph other (some morph.typeId)) :
      Passed F final other ⟨morph, some nodes⟩ [morph] ⟨morph, none⟩
  /-- What the node and the morph have in common is parked. -/
  | parked {morph : Node} {nodes : List Node} (candidate : Option Node) (h : F morph other (candidate.map typeId))
      (hne : candidate.map typeId ≠ some morph.typeId) (hmorph : ∀ n ∈ candidate, IsMorphOf final n) :
      Passed F final other ⟨morph, some nodes⟩ [] ⟨morph, some (nodes ++ candidate.toList)⟩

/-- What another node does to all columns. -/
inductive AllPassed (F : Outcomes) (final : Space) (other : Node) : List Column → List Node → List Column → Prop where
  | nil : AllPassed F final other [] [] []
  | cons {column after : Column} {columns afters : List Column} {settled settled' : List Node}
      (h : Passed F final other column settled after) (hrest : AllPassed F final other columns settled' afters) :
      AllPassed F final other (column :: columns) (settled ++ settled') (after :: afters)

theorem meetRow_other {columns : List Column} (hgrows : ∀ l r, (conjoin l r).Grows)
    (hcross : ∀ c ∈ columns, Crosses F final conjoin c.branch other) :
    Along final (meetRow conjoin other columns) fun row =>
      row.absorbed = false ∧ AllPassed F final other columns row.settled row.after := by
  induction columns with
  | nil => exact .pure ⟨rfl, .nil⟩
  | cons column rest ih =>
      obtain ⟨hcrossColumn, hcrossRest⟩ := List.forall_mem_cons.mp hcross
      have ih := ih hcrossRest
      obtain ⟨morph, parked⟩ := column
      cases parked with
      | none =>
          unfold meetRow
          refine ih.bind (fun _ => .pure _) ?_
          rintro row ⟨habsorbed, hrow⟩
          refine Along.pure ?_
          refine ⟨habsorbed, ?_⟩
          rw [Row.after_cons, habsorbed]
          exact .cons (.consumed morph) hrow
      | some nodes =>
          refine meetRow_live hgrows rfl hcrossColumn.apart.symm hcrossColumn.column ?_ ?_ ?_
          · intro n hn htype
            refine absurd ?_ hcrossColumn.foreign
            rw [← htype]
            exact hn.1
          · intro n hn htype
            refine ih.imp ?_
            rintro row ⟨habsorbed, hrow⟩
            refine ⟨habsorbed, ?_⟩
            rw [Row.after_cons]
            refine .cons (.contained ?_) hrow
            rw [← htype]
            exact hn.1
          · intro out candidate hout htype hnode _ hne
            rw [htype] at hout
            refine ih.imp ?_
            rintro row ⟨habsorbed, hrow⟩
            refine ⟨habsorbed, ?_⟩
            rw [Row.after_cons, habsorbed]
            exact .cons (.parked candidate hout.1 hne fun n hn => hout.2 n (hnode n hn)) hrow

/-- The types of what a column adds to the result once other nodes went over it. -/
def Adds (F : Outcomes) (others : List Node) (column : Column) (type : String) : Prop :=
  ∃ nodes, column.parked = some nodes ∧ (Common F others column.branch type ∨
    ¬ Contained F others column.branch ∧ type ∈ nodes.map typeId)

theorem adds_nil {column : Column} {type : String} :
    Adds F [] column type ↔ type ∈ (column.parked.getD []).map typeId := by
  obtain ⟨morph, parked⟩ := column
  cases parked <;> simp [Adds, Common, Contained]

theorem Passed.adds {column after : Column} {settled others : List Node} {type : String}
    (h : Passed F final other column settled after)
    (hunique : ∀ x y, F column.branch other x → F column.branch other y → x = y) :
    Adds F (other :: others) column type ↔ type ∈ settled.map typeId ∨ Adds F others after type := by
  cases h with
  | consumed morph => simp [Adds]
  | contained h =>
      have hcontained := @contained_head _ _ _ others h
      simp [Adds, common_head h, hcontained]
  | parked candidate h hne hmorph =>
      simp only [Adds, Option.some.injEq, exists_eq_left', common_tail h hne hunique, contained_tail h hne hunique]
      cases candidate <;> grind

theorem AllPassed.adds {columns afters : List Column} {settled others : List Node} {type : String}
    (h : AllPassed F final other columns settled afters)
    (hunique : ∀ c ∈ columns, ∀ x y, F c.branch other x → F c.branch other y → x = y) :
    (∃ c ∈ columns, Adds F (other :: others) c type) ↔
      type ∈ settled.map typeId ∨ ∃ c ∈ afters, Adds F others c type := by
  induction h with
  | nil => simp
  | cons h _ ih =>
      obtain ⟨hcolumn, hrest⟩ := List.forall_mem_cons.mp hunique
      rw [List.exists_mem_cons_iff, List.exists_mem_cons_iff, h.adds hcolumn, ih hrest, List.map_append,
        List.mem_append]
      tauto

theorem AllPassed.map_branch {columns afters : List Column} {settled : List Node}
    (h : AllPassed F final other columns settled afters) :
    afters.map Column.branch = columns.map Column.branch := by
  induction h with
  | nil => rfl
  | cons h _ ih =>
      rw [List.map_cons, List.map_cons, ih]
      cases h <;> rfl

theorem AllPassed.explored {columns afters : List Column} {settled others : List Node}
    (h : AllPassed F final other columns settled afters)
    (hunique : ∀ c ∈ columns, ∀ x y, F c.branch other x → F c.branch other y → x = y)
    (hexplored : ∀ c ∈ afters, c.parked.isSome = true → Explored F others c.branch) :
    ∀ c ∈ columns, c.parked.isSome = true → Explored F (other :: others) c.branch := by
  induction h with
  | nil => exact List.forall_mem_nil _
  | cons h _ ih =>
      obtain ⟨hcolumn, hrest⟩ := List.forall_mem_cons.mp hunique
      obtain ⟨hafter, hafters⟩ := List.forall_mem_cons.mp hexplored
      refine List.forall_mem_cons.mpr ⟨fun hlive => ?_, ih hrest hafters⟩
      cases h with
      | consumed morph => cases hlive
      | contained h => exact .inl (contained_head h)
      | parked candidate h hne hmorph => exact explored_tail h hne hcolumn (hafter rfl)

theorem AllPassed.morphs {columns afters : List Column} {settled : List Node}
    (h : AllPassed F final other columns settled afters) (hbranches : ∀ c ∈ columns, IsMorphOf final c.branch)
    (hparked : ∀ n ∈ parkedOf columns, IsMorphOf final n) :
    (∀ n ∈ settled, IsMorphOf final n) ∧ ∀ n ∈ parkedOf afters, IsMorphOf final n := by
  induction h with
  | nil => exact ⟨List.forall_mem_nil _, List.forall_mem_nil _⟩
  | cons h _ ih =>
      obtain ⟨hbranch, hrest⟩ := List.forall_mem_cons.mp hbranches
      obtain ⟨hcolumn, hcolumns⟩ := List.forall_mem_append.mp hparked
      obtain ⟨hsettled, hafters⟩ := ih hrest hcolumns
      rw [parkedOf_cons, List.forall_mem_append, List.forall_mem_append]
      cases h with
      | consumed morph => exact ⟨⟨List.forall_mem_nil _, hsettled⟩, List.forall_mem_nil _, hafters⟩
      | contained h => exact ⟨⟨List.forall_mem_singleton.mpr hbranch, hsettled⟩, List.forall_mem_nil _, hafters⟩
      | parked candidate h hne hmorph =>
          refine ⟨⟨List.forall_mem_nil _, hsettled⟩, List.forall_mem_append.mpr ⟨hcolumn, fun n hn => ?_⟩, hafters⟩
          exact hmorph n (Option.mem_toList.mp hn)

theorem meetRows_others {others : List Node} {columns : List Column} (hgrows : ∀ l r, (conjoin l r).Grows)
    (hmorphs : ∀ m ∈ columns.map Column.branch, IsMorphOf final m)
    (hcross : ∀ other ∈ others, ∀ m ∈ columns.map Column.branch, Crosses F final conjoin m other) :
    Along final (meetRows conjoin others columns) fun found =>
      (∀ c ∈ columns, c.parked.isSome = true → Explored F others c.branch) ∧
        (∀ type, type ∈ found.map typeId ↔ ∃ c ∈ columns, Adds F others c type) ∧
        ((∀ n ∈ parkedOf columns, IsMorphOf final n) → ∀ n ∈ found, IsMorphOf final n) := by
  induction others generalizing columns with
  | nil =>
      refine .pure ⟨fun _ _ _ => .inr (List.forall_mem_nil _), fun type => ?_, fun h => h⟩
      simp only [adds_nil, List.map_flatMap, List.mem_flatMap]
  | cons other rest ih =>
      obtain ⟨hcrossOther, hcrossRest⟩ := List.forall_mem_cons.mp hcross
      have hcrossColumn : ∀ c ∈ columns, Crosses F final conjoin c.branch other :=
        fun c hc => hcrossOther _ (List.mem_map_of_mem hc)
      have hunique := fun c hc => (hcrossColumn c hc).unique
      unfold meetRows
      refine (meetRow_other hgrows hcrossColumn).bind
        (fun _ => .bind (meetRows_inherits .grows hgrows _ _) fun _ => .pure _) ?_
      rintro row ⟨-, hrow⟩
      have hbranches := hrow.map_branch
      have ih := @ih row.after (by rw [hbranches]; exact hmorphs) (by rw [hbranches]; exact hcrossRest)
      refine ih.bind (fun _ => .pure _) ?_
      rintro found ⟨hexplored, htypes, hfound⟩
      refine .pure ⟨hrow.explored hunique hexplored, fun type => ?_, fun hparked => ?_⟩
      · rw [List.map_append, List.mem_append, htypes, hrow.adds hunique]
      · obtain ⟨hsettled, hafters⟩ := hrow.morphs (List.forall_mem_map.mp hmorphs) hparked
        exact List.forall_mem_append.mpr ⟨hsettled, hfound hafters⟩

-- ---------------------------------------------------------------------------
-- Crossing branches
-- ---------------------------------------------------------------------------

section

variable {morphs others : List Node} (hgrows : ∀ l r, (conjoin l r).Grows)
  (hmorphs : ∀ m ∈ morphs, IsMorphOf final m)
  (hcross : ∀ m ∈ morphs, ∀ other ∈ others, Crosses F final conjoin m other)

include hgrows hmorphs hcross

/-- Morphs as rows and other nodes as columns. -/
theorem intersectBranches_morphs :
    Along final (intersectBranches conjoin morphs others) (InCommon F final morphs others) := by
  have hbranches : (others.map fun branch => (⟨branch, some []⟩ : Column)).map Column.branch = others := by
    rw [List.map_map]
    exact List.map_id others
  have hparked : parkedOf (others.map fun branch => ⟨branch, some []⟩) = [] := by
    simp [parkedOf]
  have hrows := @meetRows_morphs F final conjoin morphs (others.map fun branch => ⟨branch, some []⟩) hmorphs
    (List.forall_mem_map.mpr fun _ _ => rfl) hgrows (by rwa [hbranches])
  refine hrows.imp fun found hfound => ?_
  rw [hbranches, hparked] at hfound
  obtain ⟨hexplored, htypes, hfound⟩ := hfound
  exact ⟨hexplored, fun type => by rw [htypes]; simp, hfound (List.forall_mem_nil _)⟩

/-- Other nodes as rows and morphs as columns. -/
theorem intersectBranches_others :
    Along final (intersectBranches conjoin others morphs) (InCommon F final morphs others) := by
  have hbranches : (morphs.map fun branch => (⟨branch, some []⟩ : Column)).map Column.branch = morphs := by
    rw [List.map_map]
    exact List.map_id morphs
  have hparked : parkedOf (morphs.map fun branch => ⟨branch, some []⟩) = [] := by
    simp [parkedOf]
  have hrows := @meetRows_others F final conjoin others (morphs.map fun branch => ⟨branch, some []⟩) hgrows
    (by rwa [hbranches]) (by rw [hbranches]; exact fun other hother m hm => hcross m hm other hother)
  refine hrows.imp fun found hfound => ?_
  rw [hparked] at hfound
  obtain ⟨hexplored, htypes, hfound⟩ := hfound
  refine ⟨fun m hm => ?_, fun type => ?_, hfound (List.forall_mem_nil _)⟩
  · exact List.forall_mem_map.mp hexplored m hm rfl
  · rw [htypes]
    simp [Adds]

end

end

-- ---------------------------------------------------------------------------
-- Intersecting a morph and another branch
-- ---------------------------------------------------------------------------

theorem typeId?_eq {left right : Space} {out out' : Intersected} (h : out.Related (Twins left right) out') :
    out.typeId? = out'.typeId? := by
  cases h with
  | node hn => exact congrArg some hn.typeId
  | disjoint hd => rfl
  | orthogonal => rfl

theorem createMorph_along {final : Space} (hvalid : final.Valid) (input : Node) (output : Option Node)
    (transforms : List Transform) : Along final (createMorph input output transforms .none) (IsMorphOf final) := by
  unfold createMorph
  split
  · exact .throw _
  · split
    · exact .throw _
    · split
      · exact .throw _
      · exact .intern hvalid

section

variable [Behaviour] {left right final : Space} {meet rule : Meet} {morph other l r : Node} {x y : Option String}

/-- What intersecting a morph with another node comes to on the way to a space. -/
def outcomesAlong (final : Space) (meet : Meet) : Outcomes := fun morph other x =>
  ∃ space : Space, space.Tidy ∧ final.Extends ((meetMorphs meet morph other).exec space).2 ∧
    ∃ out, ((meetMorphs meet morph other).exec space).1 = .ok out ∧ out.typeId? = x

/-- A morph and another node come to the same in two spaces. -/
theorem outcomes_eq (hblind : BlindToSign) (habreast : Abreast left right) (hmeet : Steady left right meet)
    (hmorph : Twins left right morph morph) (hother : Twins left right other other)
    (h : outcomesAlong left meet morph other x) (h' : outcomesAlong right meet morph other y) : x = y := by
  obtain ⟨space, htidy, hext, out, hout, rfl⟩ := h
  obtain ⟨space', htidy', hext', out', hout', rfl⟩ := h'
  have hagree := (meetMorphs_lockstep habreast hblind hmeet hmorph hother).agree space space' htidy htidy' hext hext'
  rw [hout, hout'] at hagree
  cases hagree with
  | ok hrelated => exact typeId?_eq hrelated

theorem combineBy_along (hgrows : ∀ l r, (meet l r).Grows) (operands : List Node) :
    Along final (combineBy meet operands) (· ≠ .orthogonal) := by
  refine .after (addRules_inherits .grows hgrows [] _) fun out => ?_
  cases out with
  | error d => exact .pure fun h => by cases h
  | ok rules =>
      refine .after (finish_inherits .grows hgrows .algebra .none rules (.inl trivial)) fun out => ?_
      cases out <;> exact .pure fun h => by cases h

theorem conjoinBy_along (hgrows : ∀ l r, (meet l r).Grows) (hrule : ∀ l r, (rule l r).Grows) :
    Along final (conjoinBy meet rule l r) (· ≠ .orthogonal) := by
  refine .after (meetBy_inherits .grows hrule l r) fun out => ?_
  cases out with
  | orthogonal => exact combineBy_along hgrows _
  | node n => exact .pure fun h => by cases h
  | disjoint d => exact .pure fun h => by cases h

/-- Only what goes into a morph is narrowed by another node. -/
theorem meetMorphs_along (hvalid : final.Valid) (hgrows : ∀ l r, (meet l r).Grows) (hmorph : IsMorphOf final morph)
    (hother : other.kind ≠ .morph) : Along final (meetMorphs meet morph other) fun out =>
      out ≠ .orthogonal ∧ ∀ n, out = .node n → IsMorphOf final n := by
  unfold meetMorphs
  split
  · rename_i hc
    exact absurd (by rw [kind, hc]; rfl) hother
  · rename_i input output transforms _ _
    refine (conjoinBy_along hgrows (meetIntersections_inherits .grows hgrows)).bind ?_ fun out hout => ?_
    · intro out
      cases out with
      | node narrowed => exact narrowedMorph_inherits .grows _ _ _ _ _
      | disjoint d => exact .pure _
      | orthogonal => exact .pure _
    · cases out with
      | orthogonal => exact absurd rfl hout
      | disjoint d => exact .pure ⟨hout, fun n hn => by cases hn⟩
      | node narrowed =>
          dsimp only
          split
          · refine .pure ⟨(fun h => by cases h), ?_⟩
            rintro _ ⟨⟩
            exact hmorph
          · refine (createMorph_along hvalid narrowed output transforms).bind (fun _ => .pure _) fun n hn => ?_
            refine .pure ⟨(fun h => by cases h), ?_⟩
            rintro _ ⟨⟩
            exact hn
  · rename_i hnot _
    have hkind := hmorph.2
    rw [kind] at hkind
    cases hc : morph.content with
    | morph input output transforms => exact absurd hc (hnot input output transforms)
    | _ => rw [hc] at hkind; cases hkind

theorem meetMorphs_outcomes (hvalid : final.Valid) (hgrows : ∀ l r, (meet l r).Grows)
    (hmorph : IsMorphOf final morph) (hother : other.kind ≠ .morph) : Along final (meetMorphs meet morph other)
      fun out => out ≠ .orthogonal ∧ outcomesAlong final meet morph other out.typeId? ∧
        ∀ n, out = .node n → IsMorphOf final n := by
  have halong := meetMorphs_along hvalid hgrows hmorph hother
  refine ⟨halong.grows, fun space htidy hext out hout => ?_⟩
  obtain ⟨hnot, hmorphs⟩ := halong.result space htidy hext out hout
  exact ⟨hnot, ⟨space, htidy, hext, out, hout, rfl⟩, hmorphs⟩

/-- A morph and a branch that is none come to the same whichever of them is asked. -/
theorem crosses (hblind : BlindToSign) (habreast : Abreast final final) (hmeet : Steady final final meet)
    (hmorph : IsMorphOf final morph) (hother : final.Holds other) (hbranch : other.kind.isBranch = true)
    (hnot : other.kind ≠ .morph) :
    Crosses (outcomesAlong final meet) final (conjoinBranches meet) morph other := by
  have hkinds {n : Node} (hn : IsMorphOf final n) : n.typeId ≠ other.typeId := fun htype =>
    hnot ((habreast.valid.kind_eq hn.1 hother (beq_iff_eq.mpr htype)).symm.trans hn.2)
  have horder : morph.kind.order < other.kind.order := by
    rw [hmorph.2]
    generalize other.kind = kind at hbranch hnot
    cases kind <;> first | cases hbranch; done | exact absurd rfl hnot | decide
  have houtcomes := meetMorphs_outcomes habreast.valid hmeet.grows hmorph hnot
  have hself : Twins final final morph morph := ⟨hmorph.1, hmorph.1, rfl⟩
  refine ⟨?_, ?_, fun x y => outcomes_eq hblind habreast hmeet hself ⟨hother, hother, rfl⟩, hkinds hmorph, ?_⟩
  · have hmeetBy : meetBy (meetMorphs meet) morph other = meetMorphs meet morph other := by
      rw [meetBy, if_neg (by simpa [sameType] using hkinds hmorph), if_neg (Nat.lt_asymm horder)]
    rw [conjoinBranches, conjoinBy, hmeetBy]
    refine houtcomes.bind (combined_inherits .grows hmeet.grows _) ?_
    rintro out ⟨hout, hresult⟩
    cases out with
    | orthogonal => exact absurd rfl hout
    | node n => exact .pure hresult
    | disjoint d => exact .pure hresult
  · have hmeetBy : meetBy (meetMorphs meet) other morph = do return (← meetMorphs meet morph other).invert := by
      rw [meetBy, if_neg (by simpa [sameType] using (hkinds hmorph).symm), if_pos horder]
    rw [conjoinBranches, conjoinBy, hmeetBy, bind_assoc]
    refine houtcomes.bind (fun _ => .bind (.pure _) (combined_inherits .grows hmeet.grows _)) ?_
    rintro out ⟨hout, hresult⟩
    cases out with
    | orthogonal => exact absurd rfl hout
    | node n => exact .pure hresult
    | disjoint d => exact .pure ⟨hresult.1, fun n hn => by cases hn⟩
  · rintro ⟨space, htidy, hext, out, hout, htype⟩
    obtain ⟨-, -, hmorphs⟩ := houtcomes.result space htidy hext out hout
    cases out with
    | node n => exact hkinds (hmorphs n rfl) (Option.some.inj htype)
    | disjoint d => cases htype
    | orthogonal => cases htype

end

-- ---------------------------------------------------------------------------
-- Assembling morphs
-- ---------------------------------------------------------------------------

section

variable {left right : Space} {conjoin : Meet} {nodes nodes' : List Node}

theorem branches_morphs (h : ∀ n ∈ nodes, n.kind = .morph) : (nodes.flatMap fun n => n.branches.1) = nodes :=
  flatMap_branches fun n hn => by rw [h n hn]; decide

theorem compareWithLater_morph {branch : Node} (hbranch : branch.includesMorph = true) (later : List Node) :
    compareWithLater conjoin branch later (later.map fun _ => true) = pure (true, later.map fun _ => true) := by
  induction later with
  | nil => rfl
  | cons node rest ih =>
      rw [List.map_cons, compareWithLater, hbranch, Bool.true_or, if_pos rfl, ih, pure_bind]

theorem reduceFrom_morphs (h : ∀ n ∈ nodes, n.includesMorph = true) :
    reduceFrom conjoin nodes (nodes.map fun _ => true) = pure nodes := by
  induction nodes with
  | nil => rfl
  | cons node rest ih =>
      obtain ⟨hnode, hrest⟩ := List.forall_mem_cons.mp h
      rw [List.map_cons, reduceFrom, compareWithLater_morph hnode, pure_bind]
      dsimp only
      rw [ih hrest, pure_bind, if_pos rfl]

theorem reduceUpTo_morphs (limit : Nat) (h : ∀ n ∈ nodes, n.includesMorph = true) :
    reduceUpTo limit conjoin nodes = pure nodes := by
  rw [reduceUpTo, reduceBranches, reduceFrom_morphs h, ite_self]

theorem includesMorph_of_isMorphOf (hvalid : left.Valid) {n : Node} (h : IsMorphOf left n) :
    n.includesMorph = true := by
  rw [(hvalid.written n h.1).includesMorph, h.2]
  rfl

/-- No morph is dropped when a union of morphs is assembled. -/
theorem assembleUnionBy_morphs (hvalid : left.Valid) (h : ∀ n ∈ nodes, IsMorphOf left n) :
    assembleUnionBy conjoin nodes false .none = (do
      SpaceM.note (.branches (distinctByType nodes))
      let _ ← SpaceM.reducible
      unite (distinctByType nodes)) := by
  have hmorphs : ∀ n ∈ distinctByType nodes, n.includesMorph = true := fun n hn =>
    includesMorph_of_isMorphOf hvalid (h n ((distinctByType_sublist nodes).subset hn))
  rw [assembleUnionBy_eq fun n hn => by rw [isRefinement, (h n hn).2]; rfl, branches_morphs fun n hn => (h n hn).2]
  simp only [reduceDistinct, reduceUpTo_morphs _ hmorphs, bind_assoc, pure_bind]

/-- Morphs with the same types are assembled to unions of one type. -/
theorem assembleUnionBy_twins {conjoin' : Meet} (habreast : Abreast left right) (h : ∀ n ∈ nodes, IsMorphOf left n)
    (h' : ∀ n ∈ nodes', IsMorphOf right n) (htypes : ∀ type, type ∈ nodes.map typeId ↔ type ∈ nodes'.map typeId) :
    SpaceM.Lockstep left right (assembleUnionBy conjoin nodes false .none)
      (assembleUnionBy conjoin' nodes' false .none) (Twins left right) := by
  have hbranch {space : Space} {n : Node} (hn : IsMorphOf space n) : space.Holds n ∧ n.kind.isBranch = true :=
    ⟨hn.1, by rw [hn.2]; rfl⟩
  rw [assembleUnionBy_morphs habreast.valid h, assembleUnionBy_morphs habreast.valid' h']
  refine .note _ _ ((SpaceM.Lockstep.reducible habreast).bind (fun _ => unite_grows _) (fun _ => unite_grows _) ?_)
  intro _ _ _
  exact unite_lockstep habreast (fun n hn => hbranch (h n ((distinctByType_sublist nodes).subset hn)))
    (fun n hn => hbranch (h' n ((distinctByType_sublist nodes').subset hn))) (distinctByType_perm htypes)

end

-- ---------------------------------------------------------------------------
-- Unions
-- ---------------------------------------------------------------------------

section

variable [Behaviour] {left right final : Space} {meet : Meet} {l r : Node} {ls rs : List Node}

/-- What intersecting two unions gives on the way to a space, where `P` holds of what their branches have in common. -/
inductive Unions (final : Space) (meet : Meet) (l r : Node) (ls rs : List Node) (P : List Node → Prop) :
    Intersected → Prop where
  /-- Neither has branches. -/
  | empty (hl : ls = []) (hr : rs = []) : Unions final meet l r ls rs P (.node l)
  /-- Only one of them has branches. -/
  | single (h : ¬ (ls = [] ↔ rs = [])) : Unions final meet l r ls rs P (.disjoint (.between .presence l r))
  /-- Their branches have nothing in common. -/
  | apart (hl : ls ≠ []) (hr : rs ≠ []) (hfound : P []) :
      Unions final meet l r ls rs P (.disjoint (.between .union l r))
  /-- What their branches have in common is assembled. -/
  | assembled (hl : ls ≠ []) (hr : rs ≠ []) {found : List Node} (hne : found ≠ []) (hfound : P found) {space : Space}
      (htidy : space.Tidy)
      (hext : final.Extends ((assembleUnionBy (conjoinBranches meet) found false .none).exec space).2) {n : Node}
      (hn : ((assembleUnionBy (conjoinBranches meet) found false .none).exec space).1 = .ok n) :
      Unions final meet l r ls rs P (.node n)

theorem meetUnions_along {P : List Node → Prop} (hgrows : ∀ l r, (meet l r).Grows) (hl : l.content = .union ls false)
    (hr : r.content = .union rs false) (h : Along final (intersectBranches (conjoinBranches meet) ls rs) P) :
    Along final (meetUnions meet l r) (Unions final meet l r ls rs P) := by
  have hbranches : r.branches = (rs, false) := by
    unfold branches
    rw [hr]
  unfold meetUnions
  rw [hl, hbranches]
  dsimp only
  split
  · rename_i hlEmpty hrEmpty
    exact .pure (.empty (List.isEmpty_iff.mp hlEmpty) (List.isEmpty_iff.mp hrEmpty))
  · rename_i hlEmpty hrEmpty
    have hlNe := List.isEmpty_eq_false_iff.mp hlEmpty
    have hrNe := List.isEmpty_eq_false_iff.mp hrEmpty
    have hassemble (found : List Node) :=
      assembleUnionBy_inherits .grows (conjoinBranches_inherits .grows hgrows) found false .none
    refine h.bind ?_ fun found hfound => ?_
    · intro found
      split
      · exact .pure _
      · exact .bind (hassemble found) fun _ => .pure _
    · split
      · rename_i hempty
        rw [List.isEmpty_iff.mp hempty] at hfound
        exact .pure (.apart hlNe hrNe hfound)
      · rename_i hne
        have hassembled : Along final (assembleUnionBy (conjoinBranches meet) found (false || false) .none) fun n =>
            Unions final meet l r ls rs P (.node n) :=
          ⟨hassemble found, fun space htidy hext n hn =>
            .assembled hlNe hrNe (fun heq => hne (List.isEmpty_iff.mpr heq)) hfound htidy hext hn⟩
        exact hassembled.bind (fun _ => .pure _) fun _ => .pure
  · rename_i hboth hneither
    refine .pure (.single fun hiff => ?_)
    rw [← List.isEmpty_iff, ← List.isEmpty_iff, ← Bool.eq_iff_iff] at hiff
    cases hempty : ls.isEmpty with
    | true => exact hboth hempty (hiff ▸ hempty)
    | false => exact hneither hempty (hiff ▸ hempty)

omit [Behaviour] in
theorem nil_of_types {found : List Node} (h : ∀ type, type ∈ List.map typeId [] ↔ type ∈ found.map typeId) :
    found = [] := by
  have hnil : found.map typeId = [] :=
    List.eq_nil_iff_forall_not_mem.mpr fun type htype => List.not_mem_nil ((h type).mpr htype)
  exact List.map_eq_nil_iff.mp hnil

/-- Two unions intersected in both orders come to the same if their branches have the same in common. -/
theorem Unions.related {P P' : List Node → Prop} {out out' : Intersected} (habreast : Abreast left right)
    (h : Unions left meet l r ls rs P out) (h' : Unions right meet r l rs ls P' out')
    (hempty : ls = [] → rs = [] → l.OfOneType r)
    (hmorphs : ∀ found, P found → ∀ n ∈ found, IsMorphOf left n)
    (hmorphs' : ∀ found, P' found → ∀ n ∈ found, IsMorphOf right n)
    (htypes : ∀ found found', P found → P' found' → ∀ type, type ∈ found.map typeId ↔ type ∈ found'.map typeId) :
    out.Related OfOneType out'.invert := by
  cases h with
  | empty hl hr =>
      cases h' with
      | empty => exact .node (hempty hl hr)
      | single h => exact absurd (iff_of_true hr hl) h
      | apart h => exact absurd hr h
      | assembled h => exact absurd hr h
  | single h =>
      cases h' with
      | empty hr hl => exact absurd (iff_of_true hl hr) h
      | single => exact .disjoint ⟨rfl, rfl, rfl, rfl⟩
      | apart hr hl => exact absurd (iff_of_false hl hr) h
      | assembled hr hl => exact absurd (iff_of_false hl hr) h
  | apart hl hr hfound =>
      cases h' with
      | empty hr' => exact absurd hr' hr
      | single h => exact absurd (iff_of_false hr hl) h
      | apart => exact .disjoint ⟨rfl, rfl, rfl, rfl⟩
      | assembled _ _ hne hfound' => exact absurd (nil_of_types (htypes _ _ hfound hfound')) hne
  | assembled hl hr hne hfound htidy hext hn =>
      cases h' with
      | empty hr' => exact absurd hr' hr
      | single h => exact absurd (iff_of_false hr hl) h
      | apart _ _ hfound' => exact absurd (nil_of_types fun type => (htypes _ _ hfound hfound' type).symm) hne
      | assembled _ _ _ hfound' htidy' hext' hn' =>
          have htwins := @assembleUnionBy_twins left right (conjoinBranches meet) _ _ (conjoinBranches meet) habreast
            (hmorphs _ hfound) (hmorphs' _ hfound') (htypes _ _ hfound hfound')
          have hagree := htwins.agree _ _ htidy htidy' hext hext'
          rw [hn, hn'] at hagree
          cases hagree with
          | ok h => exact .node h.typeId

omit [Behaviour] in
theorem adopt_along (hvalid : final.Valid) (hr : final.Holds r) : Along final (adopt r) (· = r) where
  grows := adopt_inherits .grows r (.inl trivial)
  result := by
    intro space htidy hext a ha
    have hnumber := (hext.trans (adopt_inherits .grows r (.inl trivial) space htidy).2).number
    rw [exec_adopt_home ((hvalid.home r hr).trans hnumber)] at ha
    exact (Except.ok.inj ha).symm

/-- Nodes of one type are the first of them. -/
theorem intersect_along {P : List Node → Prop} (hvalid : final.Valid) (hr : final.Holds r)
    (hls : l.content = .union ls false) (hrs : r.content = .union rs false) {depth : Nat}
    (hdepth : Nat.max l.nesting r.nesting = depth)
    (h : Along final (intersectBranches (conjoinBranches (conjoinWithin depth)) ls rs) P) :
    Along final (intersect l r) fun out =>
      if l.sameType r then out = .node l else Unions final (conjoinWithin depth) l r ls rs P out := by
  have hgrows (l r : Node) : (meetHere l r).Grows :=
    meetBy_inherits .grows (meetUnions_inherits .grows (conjoinWithin_inherits .grows _)) l r
  have horder : ¬ r.kind.order < l.kind.order := by
    rw [kind, kind, hls, hrs]
    exact Nat.lt_irrefl _
  refine (adopt_along hvalid hr).bind (hgrows l) ?_
  rintro _ rfl
  rw [meetHere, meetBy, hdepth, if_neg horder]
  split
  · exact .pure rfl
  · exact meetUnions_along (conjoinWithin_inherits .grows _) hls hrs h

-- ---------------------------------------------------------------------------
-- Both orders
-- ---------------------------------------------------------------------------

/-- Morphs and other branches, in either order. -/
theorem intersectBranches_along {morphs others : List Node} (hblind : BlindToSign) (habreast : Abreast final final)
    (hmeet : Steady final final meet) (hmorphs : ∀ m ∈ morphs, IsMorphOf final m)
    (hothers : ∀ other ∈ others, final.Holds other ∧ other.kind.isBranch = true ∧ other.kind ≠ .morph) :
    Along final (intersectBranches (conjoinBranches meet) morphs others)
        (InCommon (outcomesAlong final meet) final morphs others) ∧
      Along final (intersectBranches (conjoinBranches meet) others morphs)
        (InCommon (outcomesAlong final meet) final morphs others) := by
  have hgrows := conjoinBranches_inherits .grows hmeet.grows
  have hcross (m : Node) (hm : m ∈ morphs) (other : Node) (hother : other ∈ others) :
      Crosses (outcomesAlong final meet) final (conjoinBranches meet) m other := by
    obtain ⟨hholds, hbranch, hnot⟩ := hothers other hother
    exact crosses hblind habreast hmeet (hmorphs m hm) hholds hbranch hnot
  exact ⟨intersectBranches_morphs hgrows hmorphs hcross, intersectBranches_others hgrows hmorphs hcross⟩

/-- What morphs and other nodes have in common is of the same types in two spaces. -/
theorem inCommon_types {morphs others found found' : List Node} (hblind : BlindToSign) (habreast : Abreast left right)
    (hmeet : Steady left right meet) (hmorphs : ∀ m ∈ morphs, Twins left right m m)
    (hothers : ∀ other ∈ others, Twins left right other other)
    (h : InCommon (outcomesAlong left meet) left morphs others found)
    (h' : InCommon (outcomesAlong right meet) right morphs others found') (type : String) :
    type ∈ found.map typeId ↔ type ∈ found'.map typeId := by
  have hagree (m : Node) (hm : m ∈ morphs) (other : Node) (hother : other ∈ others) (x y : Option String) :=
    @outcomes_eq _ left right meet m other x y hblind habreast hmeet (hmorphs m hm) (hothers other hother)
  rw [h.types, h'.types]
  constructor
  · rintro ⟨m, hm, hcommon⟩
    exact ⟨m, hm, common_of_common (hagree m hm) (h.explored m hm) (h'.explored m hm) hcommon⟩
  · rintro ⟨m, hm, hcommon⟩
    exact ⟨m, hm, common_of_common (fun other hother x y hx hy => (hagree m hm other hother y x hy hx).symm)
      (h'.explored m hm) (h.explored m hm) hcommon⟩

omit [Behaviour] in
/-- Unions without branches are of one type. -/
theorem ofOneType_of_empty (habreast : Abreast final final) (hl : final.Holds l) (hr : final.Holds r)
    (hls : l.content = .union [] false) (hrs : r.content = .union [] false) : l.OfOneType r :=
  (Space.twins_of_plain habreast hl hr (by rw [plain_eq, plain_eq, hls, hrs])).typeId

end

/-- Unordered unions: all branches of the one are morphs, and none of the other. -/
def MorphsApart (l r : Node) : Prop :=
  l.kind = .union ∧ r.kind = .union ∧ l.branches.2 = false ∧ r.branches.2 = false ∧
    (∀ m ∈ l.branches.1, m.kind = .morph) ∧ ∀ other ∈ r.branches.1, other.kind ≠ .morph

instance (l r : Node) : Decidable (l.MorphsApart r) :=
  inferInstanceAs (Decidable (l.kind = .union ∧ r.kind = .union ∧ l.branches.2 = false ∧ r.branches.2 = false ∧
    (∀ m ∈ l.branches.1, m.kind = .morph) ∧ ∀ other ∈ r.branches.1, other.kind ≠ .morph))

theorem content_of_union {node : Node} (hkind : node.kind = .union) (hordered : node.branches.2 = false) :
    node.content = .union node.branches.1 false := by
  unfold branches at hordered ⊢
  unfold kind at hkind
  cases hc : node.content <;> rw [hc] at hkind <;> cases hkind
  rw [hc] at hordered
  exact congrArg (Content.union _) hordered

theorem holds_branches {space : Space} {node : Node} (hvalid : space.Valid) (hholds : space.Holds node)
    (hkind : node.kind = .union) (hordered : node.branches.2 = false) :
    ∀ branch ∈ node.branches.1, space.Holds branch ∧ branch.kind.isBranch = true := by
  have hcontent := content_of_union hkind hordered
  have hclosed := hvalid.closed node hholds
  have hsound := (hvalid.written node hholds).sound
  rw [children, hcontent] at hclosed
  rw [hcontent] at hsound
  exact fun branch hbranch => ⟨hclosed branch hbranch, hsound branch hbranch⟩

theorem branches_twins {left right : Space} {node : Node} (habreast : Abreast left right)
    (h : Twins left right node node) (hkind : node.kind = .union) (hordered : node.branches.2 = false) :
    ∀ branch ∈ node.branches.1, Twins left right branch branch := fun branch hbranch =>
  ⟨(holds_branches habreast.valid h.holds hkind hordered branch hbranch).1,
    (holds_branches habreast.valid' h.holds' hkind hordered branch hbranch).1, rfl⟩

theorem MorphsApart.along [Behaviour] {final : Space} {meet : Meet} {l r : Node} (h : MorphsApart l r)
    (hblind : BlindToSign) (habreast : Abreast final final) (hmeet : Steady final final meet) (hl : final.Holds l)
    (hr : final.Holds r) :
    Along final (intersectBranches (conjoinBranches meet) l.branches.1 r.branches.1)
        (InCommon (outcomesAlong final meet) final l.branches.1 r.branches.1) ∧
      Along final (intersectBranches (conjoinBranches meet) r.branches.1 l.branches.1)
        (InCommon (outcomesAlong final meet) final l.branches.1 r.branches.1) := by
  obtain ⟨hlKind, hrKind, hlOrdered, hrOrdered, hmorphs, hothers⟩ := h
  refine intersectBranches_along hblind habreast hmeet (fun m hm => ?_) fun other hother => ?_
  · exact ⟨(holds_branches habreast.valid hl hlKind hlOrdered m hm).1, hmorphs m hm⟩
  · obtain ⟨hholds, hbranch⟩ := holds_branches habreast.valid hr hrKind hrOrdered other hother
    exact ⟨hholds, hbranch, hothers other hother⟩

section

variable [Behaviour] {left right space later : Space} {l r : Node} {out out' : Intersected}
  (hblind : BlindToSign) (habreast : Abreast left right) (hl : Twins left right l l) (hr : Twins left right r r)
  (htidy : space.Tidy) (htidy' : later.Tidy) (hext : left.Extends ((intersect l r).exec space).2)
  (hext' : right.Extends ((intersect r l).exec later).2) (hout : ((intersect l r).exec space).1 = .ok out)
  (hout' : ((intersect r l).exec later).1 = .ok out')

include hblind habreast hl hr htidy htidy' hext hext' hout hout'

/-- Both orders of intersecting unions, where their branches have in common what morphs have with other nodes. -/
theorem related_of_inCommon {ls rs morphs others : List Node} (hls : l.content = .union ls false)
    (hrs : r.content = .union rs false) (hmorphs : ∀ m ∈ morphs, Twins left right m m)
    (hothers : ∀ other ∈ others, Twins left right other other) {depth : Nat}
    (hdepth : Nat.max l.nesting r.nesting = depth)
    (h : Along left (intersectBranches (conjoinBranches (conjoinWithin depth)) ls rs)
      (InCommon (outcomesAlong left (conjoinWithin depth)) left morphs others))
    (h' : Along right (intersectBranches (conjoinBranches (conjoinWithin depth)) rs ls)
      (InCommon (outcomesAlong right (conjoinWithin depth)) right morphs others)) :
    out.Related OfOneType out'.invert := by
  have hmeet := conjoinWithin_steady habreast hblind depth
  have hdepth' : Nat.max r.nesting l.nesting = depth := (Nat.max_comm _ _).trans hdepth
  have hfirst := (intersect_along habreast.valid hr.holds hls hrs hdepth h).result space htidy hext out hout
  have hsecond := (intersect_along habreast.valid' hl.holds' hrs hls hdepth' h').result later htidy' hext' out' hout'
  have hcomm : r.sameType l = l.sameType r := BEq.comm
  rw [hcomm] at hsecond
  cases hsame : l.sameType r with
  | true =>
      rw [hsame, if_pos rfl] at hfirst hsecond
      rw [hfirst, hsecond]
      exact .node (eq_of_beq hsame)
  | false =>
      rw [hsame, if_neg Bool.false_ne_true] at hfirst hsecond
      refine hfirst.related habreast hsecond ?_ (fun _ hfound => hfound.morphs) (fun _ hfound => hfound.morphs)
        fun _ _ hfound hfound' => inCommon_types hblind habreast hmeet hmorphs hothers hfound hfound'
      intro hlNil hrNil
      exact ofOneType_of_empty habreast.first hl.holds hr.holds (hlNil ▸ hls) (hrNil ▸ hrs)

/-- Both orders of intersecting a union of morphs and a union of other branches. -/
theorem related_of_morphsApart (h : MorphsApart l r ∨ MorphsApart r l) : out.Related OfOneType out'.invert := by
  have hmeet := conjoinWithin_steady habreast.first hblind (Nat.max l.nesting r.nesting)
  have hmeet' := conjoinWithin_steady habreast.second hblind (Nat.max l.nesting r.nesting)
  rcases h with h | h
  · have halong := h.along hblind habreast.first hmeet hl.holds hr.holds
    have halong' := h.along hblind habreast.second hmeet' hl.holds' hr.holds'
    obtain ⟨hlKind, hrKind, hlOrdered, hrOrdered, -⟩ := h
    exact related_of_inCommon hblind habreast hl hr htidy htidy' hext hext' hout hout'
      (content_of_union hlKind hlOrdered) (content_of_union hrKind hrOrdered)
      (branches_twins habreast hl hlKind hlOrdered) (branches_twins habreast hr hrKind hrOrdered) rfl halong.1 halong'.2
  · have halong := h.along hblind habreast.first hmeet hr.holds hl.holds
    have halong' := h.along hblind habreast.second hmeet' hr.holds' hl.holds'
    obtain ⟨hrKind, hlKind, hrOrdered, hlOrdered, -⟩ := h
    exact related_of_inCommon hblind habreast hl hr htidy htidy' hext hext' hout hout'
      (content_of_union hlKind hlOrdered) (content_of_union hrKind hrOrdered)
      (branches_twins habreast hr hrKind hrOrdered) (branches_twins habreast hl hlKind hlOrdered) rfl halong.2 halong'.1

end

variable [Behaviour] {space later : Space} {l r : Node}

/-- A union of morphs and a union of other branches have the same in common in either order, or the same conflict with
its sides swapped: also where the one order is asked for in a later state than the other. -/
theorem intersect_morphs_comm (hblind : BlindToSign) (hspace : space.Reachable True) (hl : space.Holds l)
    (hr : space.Holds r) (hapart : MorphsApart l r ∨ MorphsApart r l) (hlater : later.Reachable True)
    (hsucceeds : later.Succeeds ((intersect l r).exec space).2) (hl' : later.Holds l) (hr' : later.Holds r)
    (hregular : ((intersect l r).exec space).2.Regular) (hregular' : ((intersect r l).exec later).2.Regular)
    {out out' : Intersected} (hout : ((intersect l r).exec space).1 = .ok out)
    (hout' : ((intersect r l).exec later).1 = .ok out') : out.Related OfOneType out'.invert := by
  have hfirst := @intersect_always _ False space l r hl (.inl hr)
  have hsecond := @intersect_always _ False later r l hr' (.inl hl')
  have habreast := abreast_of_runs hspace.valid hlater.valid hfirst hsecond hsucceeds hregular hregular'
  have hext := (hfirst space hspace.valid (.refl space)).extension
  have hext' := (hsecond later hlater.valid (.refl later)).extension
  have hself {node : Node} (hnode : space.Holds node) (hnode' : later.Holds node) : Twins _ _ node node :=
    ⟨hext.holds node hnode, hext'.holds node hnode', rfl⟩
  exact related_of_morphsApart hblind habreast (hself hl hl') (hself hr hr') hspace.valid.tidy hlater.valid.tidy
    (.refl _) (.refl _) hout hout' hapart

omit [Behaviour] in
/-- One union halves numbers and trims texts, the other asks for texts or for numbers up to 10: texts are trimmed and only
these numbers halved, in either order. -/
theorem narrowed_morph_commutes : ∃ (space : Space) (l r : Node) (out out' : Intersected),
    @Space.Reachable Stock.behaviour True space ∧ space.Holds l ∧ space.Holds r ∧ MorphsApart l r ∧
      l.branches.1.length = 2 ∧ r.branches.1.length = 2 ∧
      ((@intersect Stock.behaviour l r).exec space).1 = .ok out ∧
      ((@intersect Stock.behaviour r l).exec ((@intersect Stock.behaviour l r).exec space).2).1 = .ok out' ∧
      out.typeId?.isSome = true ∧ out.typeId? ≠ (Intersected.node l).typeId? ∧ out.Related OfOneType out'.invert := by
  let _ := Stock.behaviour
  let morph (input operation : String) : Definition :=
    .map [("in", .string input), ("morph", .transform ⟨0, none, operation⟩)]
  let morphs : Definition := .list [morph "number" "half", morph "string" "trim"]
  let others : Definition := .list [.string "string", .map [("basis", .string "number"), ("max", .number (.ofNat 10))]]
  let program : SpaceM Bool := do
    let l ← morphs.readRoot
    let r ← others.readRoot
    let space ← get
    let out ← intersect l r
    let middle ← get
    let _ ← intersect r l
    let later ← get
    return decide (MorphsApart l r ∧ (l.branches.1.length = 2 ∧ r.branches.1.length = 2) ∧
      (out.typeId?.isSome = true ∧ out.typeId? ≠ (Intersected.node l).typeId?) ∧ middle.Regular ∧ later.Regular)
  have hyields : program.yields (.new 0 .standard) (fun b => b) = true := by
    decide +kernel
  obtain ⟨l, hl, hyields⟩ := SpaceM.yields_bind.mp hyields
  obtain ⟨r, hr, hyields⟩ := SpaceM.yields_bind.mp hyields
  rw [SpaceM.yields_get] at hyields
  obtain ⟨out, hout, hyields⟩ := SpaceM.yields_bind.mp hyields
  rw [SpaceM.yields_get] at hyields
  obtain ⟨out', hout', hyields⟩ := SpaceM.yields_bind.mp hyields
  rw [SpaceM.yields_get, SpaceM.yields_pure, decide_eq_true_eq] at hyields
  obtain ⟨hapart, hbranches, hnode, hregular, hregular'⟩ := hyields
  obtain ⟨hspace, hlHeld, hrHeld⟩ := (@Space.Reachable.new _ True 0 .standard).read_both rfl rfl hl hr
  have hrun : (Request.intersect l r).run = (do let _ ← intersect l r) := rfl
  obtain ⟨hlater, hext⟩ :=
    hspace.after hrun (List.forall_mem_singleton.mpr hlHeld) (List.forall_mem_singleton.mpr hrHeld)
  exact ⟨_, l, r, out, out', hspace, hlHeld, hrHeld, hapart, hbranches.1, hbranches.2, hout, hout', hnode.1, hnode.2,
    intersect_morphs_comm Stock.blindToSign hspace hlHeld hrHeld (.inl hapart) hlater (.refl _) (hext.holds l hlHeld)
      (hext.holds r hrHeld) hregular hregular' hout hout'⟩

omit [Behaviour] in
/-- Where one union has both a morph and a plain branch, the order matters: a morph from arrays of at least 5 items is parked
in the column of arrays of at least 3 items, and lost when the row of all arrays settles that column. As a column it is
settled at once. -/
theorem parked_morph_lost : ∃ (space : Space) (l r n n' : Node), @Space.Reachable Stock.behaviour True space ∧
    space.Holds l ∧ space.Holds r ∧ ((@intersect Stock.behaviour l r).exec space).1 = .ok (.node n) ∧
      ((@intersect Stock.behaviour r l).exec ((@intersect Stock.behaviour l r).exec space).2).1 = .ok (.node n') ∧
      ((@intersect Stock.behaviour r l).exec ((@intersect Stock.behaviour l r).exec space).2).2.Regular ∧
      n.typeId ≠ n'.typeId := by
  let _ := Stock.behaviour
  let atLeast (n : Nat) : Definition := .map [("basis", .proto .array), ("min", .number (.ofNat n))]
  let measured : Definition := .map [("in", atLeast 5), ("morph", .transform ⟨0, none, "length"⟩)]
  let lefts : Definition := .list [measured, .proto .array]
  let rights : Definition := .list [atLeast 3, .string "number"]
  let program : SpaceM Bool := do
    let l ← lefts.readRoot
    let r ← rights.readRoot
    let out ← intersect l r
    let out' ← intersect r l
    let later ← get
    return decide (out.isNode = true ∧ out'.isNode = true ∧ later.Regular ∧ out.typeId? ≠ out'.typeId?)
  have hyields : program.yields (.new 0 .standard) (fun b => b) = true := by
    decide +kernel
  obtain ⟨l, hl, hyields⟩ := SpaceM.yields_bind.mp hyields
  obtain ⟨r, hr, hyields⟩ := SpaceM.yields_bind.mp hyields
  obtain ⟨out, hout, hyields⟩ := SpaceM.yields_bind.mp hyields
  obtain ⟨out', hout', hyields⟩ := SpaceM.yields_bind.mp hyields
  rw [SpaceM.yields_get, SpaceM.yields_pure, decide_eq_true_eq] at hyields
  obtain ⟨hnode, hnode', hregular, hdiffer⟩ := hyields
  obtain ⟨n, rfl⟩ := Intersected.isNode_iff.mp hnode
  obtain ⟨n', rfl⟩ := Intersected.isNode_iff.mp hnode'
  obtain ⟨hspace, hlHeld, hrHeld⟩ := (@Space.Reachable.new _ True 0 .standard).read_both rfl rfl hl hr
  exact ⟨_, l, r, n, n', hspace, hlHeld, hrHeld, hout, hout', hregular, fun heq => hdiffer (congrArg some heq)⟩

end Node

end SchemaAlgebra
