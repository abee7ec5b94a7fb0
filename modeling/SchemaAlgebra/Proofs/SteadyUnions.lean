-- SUMMARY: Building and intersecting unions keeps in step on nodes of one type, and so does conjoining nodes to any depth.
import SchemaAlgebra.Proofs.Steady

/-!
# Unions in step

Flattening, reducing and sorting branches go by types and by texts of types, so that
they do the same to branches of the same types. The same branches are found to cover
others, the same columns are settled, and the same intersections are parked in them.
-/

namespace SchemaAlgebra

namespace Node

open Space (Twins Abreast)
open SpaceM (Lockstep)

variable {left right : Space} {l l' r r' : Node}

-- ---------------------------------------------------------------------------
-- Branches
-- ---------------------------------------------------------------------------

theorem any_sameType_eq {n n' : Node} (hn : Twins left right n n') {nodes nodes' : List Node}
    (h : List.Forall₂ (Twins left right) nodes nodes') : nodes.any n.sameType = nodes'.any n'.sameType := by
  induction h with
  | nil => rfl
  | cons hc _ ih => rw [List.any_cons, List.any_cons, sameType_eq hn hc, ih]

theorem distinctByType_related {nodes nodes' : List Node} (h : List.Forall₂ (Twins left right) nodes nodes') :
    List.Forall₂ (Twins left right) (distinctByType nodes) (distinctByType nodes') := by
  refine List.rel_reverse (List.rel_foldl (P := List.Forall₂ (Twins left right)) ?_ .nil h)
  intro kept kept' hkept n n' hn
  dsimp only
  rw [any_sameType_eq hn hkept]
  split
  · exact hkept
  · exact .cons hn hkept

variable (habreast : Abreast left right)

include habreast

theorem flatten_lockstep {branches branches' : List Node} (h : List.Forall₂ (Twins left right) branches branches') :
    Lockstep left right (flatten branches) (flatten branches') (List.Forall₂ (Twins left right)) := by
  induction h with
  | nil => exact .pure .nil
  | @cons branch branch' rest rest' hbranch _ ih =>
      have hsingle : Lockstep left right
          (if branch.kind.isBranch then return branch :: (← flatten rest)
            else SpaceM.parseError (.notBranch branch.kind))
          (if branch'.kind.isBranch then return branch' :: (← flatten rest')
            else SpaceM.parseError (.notBranch branch'.kind)) (List.Forall₂ (Twins left right)) :=
        .ite (by rw [hbranch.kind_eq habreast]) (ih.map fun _ _ => .cons hbranch) (.parseError _ _)
      have hcontent := hbranch.content habreast
      unfold flatten
      generalize branch.content = c at hcontent ⊢
      generalize branch'.content = c' at hcontent ⊢
      cases hcontent with
      | union ordered h => exact ih.map fun _ _ hrest => List.rel_append h hrest
      | _ => exact hsingle

theorem branches_related (hl : Twins left right l l') :
    List.Forall₂ (Twins left right) l.branches.1 l'.branches.1 ∧ l.branches.2 = l'.branches.2 := by
  have hcontent := hl.content habreast
  unfold branches
  generalize l.content = c at hcontent ⊢
  generalize l'.content = c' at hcontent ⊢
  cases hcontent with
  | union ordered h => exact ⟨h, rfl⟩
  | _ => exact ⟨.cons hl .nil, rfl⟩

theorem isExhaustive_eq {branches branches' : List Node} (h : List.Forall₂ (Twins left right) branches branches') :
    isExhaustive branches = isExhaustive branches' := by
  have halike : AllAlike branches branches' := h.imp fun _ _ hn => hn.alike habreast
  have halike' : AllAlike branches' branches := h.flip.imp fun _ _ hn => (hn.alike habreast).symm
  cases hexhaustive : isExhaustive branches' with
  | false => exact halike.isExhaustive hexhaustive
  | true =>
      cases hexhaustive' : isExhaustive branches with
      | false => exact (halike'.isExhaustive hexhaustive').symm.trans hexhaustive
      | true => rfl

theorem coverAll_lockstep {branches branches' : List Node} (h : List.Forall₂ (Twins left right) branches branches') :
    Lockstep left right (coverAll branches) (coverAll branches') (List.Forall₂ (Twins left right)) := by
  refine .ite (by rw [isExhaustive_eq habreast h]) (.note _ _ ?_) (.pure h)
  exact (Lockstep.intern habreast (.intersection .none .nil)).map fun _ _ hn => .cons hn .nil

theorem sortBranches_related {branches branches' : List Node} (h : List.Forall₂ (Twins left right) branches branches') :
    List.Forall₂ (Twins left right) (sortBranches branches) (sortBranches branches') := by
  rw [sortBranches_eq, sortBranches_eq]
  exact forall₂_mergeSort h fun a a' b b' hab hab' => by
    rw [branchLE, branchLE, hab.typeJson_eq habreast, hab'.typeJson_eq habreast]

/-- Branches of the same types are sorted alike, in whatever order they are given. -/
theorem sortBranches_twins {branches branches' : List Node}
    (h : ∀ n ∈ branches, left.Holds n ∧ n.kind.isBranch = true)
    (h' : ∀ n ∈ branches', right.Holds n ∧ n.kind.isBranch = true)
    (hperm : (branches.map typeId).Perm (branches'.map typeId)) :
    List.Forall₂ (Twins left right) (sortBranches branches) (sortBranches branches') := by
  obtain ⟨order, htypes, horder⟩ : Relation.Comp (· = List.map typeId ·) List.Perm (branches'.map typeId) branches := by
    rw [List.eq_map_comp_perm]
    exact hperm.symm
  have hheld : ∀ n ∈ order, left.Holds n ∧ n.kind.isBranch = true := fun n hn => h n (horder.mem_iff.mp hn)
  have htwins : List.Forall₂ (Twins left right) order branches' :=
    forall₂_imp_of_mem (forall₂_map_eq.mpr htypes.symm) fun n hn n' hn' heq => ⟨(hheld n hn).1, (h' n' hn').1, heq⟩
  have hrelated := sortBranches_related habreast htwins
  have hsorted {nodes : List Node} (hnodes : ∀ n ∈ nodes, left.Holds n ∧ n.kind.isBranch = true) :
      ∀ n ∈ sortBranches nodes, left.Holds n ∧ n.kind.isBranch = true :=
    fun n hn => hnodes n ((sortBranches_perm nodes).mem_iff.mp hn)
  have hplain : (sortBranches branches).map (plain left.registry) = (sortBranches order).map (plain left.registry) := by
    refine map_eq_of_sorted (P := fun n => left.Holds n ∧ n.kind.isBranch = true)
      (fun x y hx hy => branchLE_plain habreast.valid hx.1 hy.1)
      (fun x y hx hy => plain_eq_of_tied_branches habreast.valid habreast.regular hx.1 hy.1 hx.2 hy.2)
      (hsorted h) (hsorted hheld) ?_ ?_ ?_
    · exact (sortBranches_sorted branches).imp decide_eq_true
    · exact (sortBranches_sorted order).imp decide_eq_true
    · exact (((sortBranches_perm _).trans horder.symm).trans (sortBranches_perm _).symm).map _
  have hsame := forall₂_imp_of_mem (forall₂_map_eq.mpr hplain) fun n hn n' hn' heq =>
    Space.twins_of_plain habreast.first (hsorted h n hn).1 (hsorted hheld n' hn').1 heq
  have hfinal : (sortBranches branches).map typeId = (sortBranches branches').map typeId :=
    (forall₂_map_eq.mp (hsame.imp fun _ _ hn => hn.typeId)).trans
      (forall₂_map_eq.mp (hrelated.imp fun _ _ hn => hn.typeId))
  exact forall₂_imp_of_mem (forall₂_map_eq.mpr hfinal) fun n hn n' hn' heq =>
    ⟨(hsorted h n hn).1, (h' n' ((sortBranches_perm _).mem_iff.mp hn')).1, heq⟩

/-- Branches of the same types cover every value or not, and what is left of them is sorted alike. -/
theorem coverAll_sorted {branches branches' : List Node} (h : ∀ n ∈ branches, left.Holds n ∧ n.kind.isBranch = true)
    (h' : ∀ n ∈ branches', right.Holds n ∧ n.kind.isBranch = true)
    (hperm : (branches.map typeId).Perm (branches'.map typeId)) :
    Lockstep left right (coverAll branches) (coverAll branches') fun nodes nodes' =>
      List.Forall₂ (Twins left right) (sortBranches nodes) (sortBranches nodes') := by
  have hsorted := sortBranches_twins habreast h h' hperm
  have hexhaustive : isExhaustive branches = isExhaustive branches' := by
    rw [← isExhaustive_perm (sortBranches_perm branches), isExhaustive_eq habreast hsorted,
      isExhaustive_perm (sortBranches_perm branches')]
  refine .ite (by rw [hexhaustive]) (.note _ _ ?_) (.pure hsorted)
  exact (Lockstep.intern habreast (.intersection .none .nil)).map fun _ _ hn =>
    sortBranches_related habreast (.cons hn .nil)

/-- What branches come to under two captions: nodes of one type, or the only branch where a caption is missing and the
union of it alone where there is one. -/
inductive Joined (left right : Space) (caption caption' : Caption) (a b : Node) : Prop where
  | twins (h : Twins left right a b)
  | lone (only : Node) (ordered : Bool) (hmissing : caption.isEmpty = true) (hthere : caption'.isEmpty = false)
      (honly : Twins left right a only) (hholds : right.Holds b)
      (htypeId : b.typeId = (Content.union [only] ordered).identifier
        ((Content.union [only] ordered).json right.registry false .none))

omit habreast in
/-- Without captions, or with captions on both sides, nothing but the type is decided. -/
theorem Joined.twins_of_eq {caption : Caption} {a b : Node} (h : Joined left right caption caption a b) :
    Twins left right a b := by
  cases h with
  | twins h => exact h
  | lone only ordered hmissing hthere => rw [hmissing] at hthere; cases hthere

theorem only_joined {caption caption' : Caption} (hcaptions : caption'.isEmpty = true → caption.isEmpty = true)
    {sorted sorted' : List Node} (h : List.Forall₂ (Twins left right) sorted sorted') (ordered : Bool) :
    Lockstep left right
      (match sorted, caption.isEmpty with
        | [only], true => return only
        | _, _ => SpaceM.intern (.union sorted ordered) caption)
      (match sorted', caption'.isEmpty with
        | [only], true => return only
        | _, _ => SpaceM.intern (.union sorted' ordered) caption') (Joined left right caption caption') := by
  have hintern : Lockstep left right (SpaceM.intern (.union sorted ordered) caption)
      (SpaceM.intern (.union sorted' ordered) caption') (Joined left right caption caption') :=
    (Lockstep.internAs habreast (.union ordered h) (fun _ => trivial) fun _ => trivial).imp fun _ _ => .twins
  cases h with
  | nil => exact hintern
  | @cons n n' _ _ hn hrest =>
      cases hrest with
      | cons _ _ => exact hintern
      | nil =>
          cases hmissing : caption.isEmpty with
          | false =>
              have hthere : caption'.isEmpty = false := Bool.eq_false_iff.mpr fun h => by simp [hcaptions h] at hmissing
              rw [hthere]
              exact hintern
          | true =>
              cases hthere : caption'.isEmpty with
              | true => exact .pure (.twins hn)
              | false =>
                  refine ⟨.pure _, .intern _ _, fun _ other _ htidy' _ hext' => .ok ?_⟩
                  obtain ⟨hholds, -, htypeId⟩ := @Space.intern_typeId _ _ htidy' habreast.valid' (.union [n'] ordered) _
                    (fun _ => trivial) hext' (List.forall_mem_singleton.mpr hn.holds')
                  exact .lone n' ordered hmissing hthere hn hholds htypeId

theorem only_lockstep {sorted sorted' : List Node} (h : List.Forall₂ (Twins left right) sorted sorted') (ordered : Bool) :
    Lockstep left right
      (match sorted, Caption.none.isEmpty with
        | [only], true => return only
        | _, _ => SpaceM.intern (.union sorted ordered) .none)
      (match sorted', Caption.none.isEmpty with
        | [only], true => return only
        | _, _ => SpaceM.intern (.union sorted' ordered) .none) (Twins left right) :=
  (only_joined habreast (fun h => h) h ordered).imp fun _ _ => Joined.twins_of_eq

-- ---------------------------------------------------------------------------
-- Reduction
-- ---------------------------------------------------------------------------

section

variable {conjoin : Meet} (hconjoin : Steady left right conjoin)

include hconjoin

theorem compareWithLater_lockstep {branch branch' : Node} (hbranch : Twins left right branch branch')
    {later later' : List Node} (h : List.Forall₂ (Twins left right) later later') (kept : List Bool) :
    Lockstep left right (compareWithLater conjoin branch later kept) (compareWithLater conjoin branch' later' kept)
      (· = ·) := by
  induction h generalizing kept with
  | nil => cases kept <;> exact .pure rfl
  | @cons n n' rest rest' hn _ ih =>
      match kept with
      | [] => exact .pure rfl
      | false :: kept => exact (ih kept).map fun _ _ h => by rw [h]
      | true :: kept =>
          have hkeep := (ih kept).map (f := fun out => (out.1, true :: out.2)) (g := fun out => (out.1, true :: out.2))
            (Q := (· = ·)) fun _ _ h => by rw [h]
          unfold compareWithLater
          refine .ite (by rw [hbranch.includesMorph_eq habreast, hn.includesMorph_eq habreast]) hkeep ?_
          refine (hconjoin.agree hbranch hn).onNode
            (fun result => comparedTo_inherits .grows result branch n kept (ih kept).grows)
            (fun result => comparedTo_inherits .grows result branch' n' kept (ih kept).grows') (fun _ => hkeep.grows)
            (fun _ => hkeep.grows') (fun result result' hresult => ?_) fun _ _ _ => hkeep
          refine .ite (by rw [sameType_eq hresult hbranch]) (.pure rfl) ((ih kept).map fun _ _ h => ?_)
          rw [h, sameType_eq hresult hn]

theorem reduceFrom_lockstep {branches branches' : List Node} (h : List.Forall₂ (Twins left right) branches branches')
    (kept : List Bool) :
    Lockstep left right (reduceFrom conjoin branches kept) (reduceFrom conjoin branches' kept)
      (List.Forall₂ (Twins left right)) := by
  induction h generalizing kept with
  | nil => cases kept <;> exact .pure .nil
  | @cons branch branch' rest rest' hbranch hrest ih =>
      match kept with
      | [] => exact .pure .nil
      | false :: kept => exact ih kept
      | true :: kept =>
          refine (compareWithLater_lockstep habreast hconjoin hbranch hrest kept).bind
            (fun _ => .bind (reduceFrom_inherits .grows hconjoin.grows _ _) fun _ => .pure _)
            (fun _ => .bind (reduceFrom_inherits .grows hconjoin.grows _ _) fun _ => .pure _) fun out out' hout => ?_
          obtain rfl := hout
          refine (ih out.2).map fun reduced reduced' hreduced => ?_
          split
          · exact .cons hbranch hreduced
          · exact hreduced

theorem reduceUpTo_lockstep (limit : Nat) {branches branches' : List Node}
    (h : List.Forall₂ (Twins left right) branches branches') :
    Lockstep left right (reduceUpTo limit conjoin branches) (reduceUpTo limit conjoin branches')
      (List.Forall₂ (Twins left right)) := by
  have hkept : (branches.map fun _ => true) = branches'.map fun _ => true := by
    rw [List.map_const', List.map_const', h.length_eq]
  refine .ite (by rw [h.length_eq]) ?_ (.pure h)
  rw [reduceBranches, reduceBranches, ← hkept]
  exact reduceFrom_lockstep habreast hconjoin h _

theorem assembleUnionBy_joined {caption caption' : Caption}
    (hcaptions : caption'.isEmpty = true → caption.isEmpty = true) {branches branches' : List Node}
    (h : List.Forall₂ (Twins left right) branches branches') (ordered : Bool) :
    Lockstep left right (assembleUnionBy conjoin branches ordered caption)
      (assembleUnionBy conjoin branches' ordered caption') (Joined left right caption caption') := by
  refine (flatten_lockstep habreast h).bind ?flattened ?flattened' fun flat flat' hflat => .note _ _ ?_
  case flattened | flattened' =>
    exact fun _ => .bind (.note _) fun _ => .bind .reducible fun _ =>
      .bind (reduceUpTo_inherits .grows hconjoin.grows _ _) fun _ => .bind (coverAll_inherits .grows _) fun _ =>
        only_inherits .grows _ _ _
  refine (Lockstep.reducible habreast).bind ?limited ?limited' fun limit limit' hlimit => ?_
  case limited | limited' =>
    exact fun _ => .bind (reduceUpTo_inherits .grows hconjoin.grows _ _) fun _ =>
      .bind (coverAll_inherits .grows _) fun _ => only_inherits .grows _ _ _
  obtain rfl := hlimit
  refine (reduceUpTo_lockstep habreast hconjoin limit (distinctByType_related hflat)).bind
    (fun _ => .bind (coverAll_inherits .grows _) fun _ => only_inherits .grows _ _ _)
    (fun _ => .bind (coverAll_inherits .grows _) fun _ => only_inherits .grows _ _ _)
    fun reduced reduced' hreduced => ?_
  refine (coverAll_lockstep habreast hreduced).bind (fun _ => only_inherits .grows _ _ _)
    (fun _ => only_inherits .grows _ _ _)
    fun simplified simplified' hsimplified => only_joined habreast hcaptions ?_ ordered
  split
  · exact hsimplified
  · exact sortBranches_related habreast hsimplified

theorem assembleUnionBy_lockstep {branches branches' : List Node}
    (h : List.Forall₂ (Twins left right) branches branches') (ordered : Bool) :
    Lockstep left right (assembleUnionBy conjoin branches ordered .none)
      (assembleUnionBy conjoin branches' ordered .none) (Twins left right) :=
  (assembleUnionBy_joined habreast hconjoin (fun h => h) h ordered).imp fun _ _ => Joined.twins_of_eq

end

-- ---------------------------------------------------------------------------
-- Two parts
-- ---------------------------------------------------------------------------

omit habreast

/-- The first part of assembling a union: its branches are of different types, and none covers another. -/
def reduceDistinct (conjoin : Meet) (flat : List Node) : SpaceM (List Node) := do
  SpaceM.note (.branches (distinctByType flat))
  reduceUpTo (← SpaceM.reducible) conjoin (distinctByType flat)

/-- The second part of assembling an unordered union: what is left of its branches is put together. -/
def unite (reduced : List Node) : SpaceM Node := do
  let sorted := sortBranches (← coverAll reduced)
  match sorted, Caption.none.isEmpty with
  | [only], true => return only
  | _, _ => SpaceM.intern (.union sorted false) .none

theorem assembleUnionBy_eq {conjoin : Meet} {nodes : List Node} (hroots : ∀ n ∈ nodes, n.isRefinement = false) :
    assembleUnionBy conjoin nodes false .none =
      reduceDistinct conjoin (nodes.flatMap fun n => n.branches.1) >>= unite := by
  simp only [assembleUnionBy, flatten_eq hroots, pure_bind, reduceDistinct, bind_assoc]
  rfl

theorem unite_grows (branches : List Node) : (unite branches).Grows :=
  .bind (coverAll_inherits .grows _) fun _ => only_inherits .grows _ _ _

/-- Putting branches together never fails. -/
theorem unite_ok (branches : List Node) (space : Space) : ∃ n, ((unite branches).exec space).1 = .ok n := by
  obtain ⟨simplified, hsimplified⟩ : ∃ simplified, ((coverAll branches).exec space).1 = .ok simplified := by
    unfold coverAll
    split <;> exact ⟨_, rfl⟩
  rw [unite, SpaceM.exec_bind]
  generalize (coverAll branches).exec space = first at hsimplified ⊢
  obtain ⟨out, middle⟩ := first
  obtain rfl : out = .ok simplified := hsimplified
  dsimp only
  split <;> exact ⟨_, rfl⟩

include habreast

theorem unite_lockstep {branches branches' : List Node} (h : ∀ n ∈ branches, left.Holds n ∧ n.kind.isBranch = true)
    (h' : ∀ n ∈ branches', right.Holds n ∧ n.kind.isBranch = true)
    (hperm : (branches.map typeId).Perm (branches'.map typeId)) :
    Lockstep left right (unite branches) (unite branches') (Twins left right) :=
  (coverAll_sorted habreast h h' hperm).bind (fun _ => only_inherits .grows _ _ _) (fun _ => only_inherits .grows _ _ _)
    fun _ _ hsorted => only_lockstep habreast hsorted false

-- ---------------------------------------------------------------------------
-- Columns
-- ---------------------------------------------------------------------------

/-- Columns with branches and parked intersections of the same types. -/
structure ColumnTwins (left right : Space) (column column' : Column) : Prop where
  branch : Twins left right column.branch column'.branch
  parked : Option.Rel (List.Forall₂ (Twins left right)) column.parked column'.parked

namespace ColumnTwins

variable {column column' : Column}

omit habreast

theorem isNone_eq (h : ColumnTwins left right column column') : column.parked.isNone = column'.parked.isNone := by
  obtain ⟨branch, parked⟩ := column
  obtain ⟨branch', parked'⟩ := column'
  cases h.parked <;> rfl

theorem getD_parked (h : ColumnTwins left right column column') :
    List.Forall₂ (Twins left right) (column.parked.getD []) (column'.parked.getD []) := by
  obtain ⟨branch, parked⟩ := column
  obtain ⟨branch', parked'⟩ := column'
  cases h.parked with
  | none => exact .nil
  | some hparked => exact hparked

theorem park (h : ColumnTwins left right column column') {candidate candidate' : Option Node}
    (hcandidate : Option.Rel (Twins left right) candidate candidate') :
    ColumnTwins left right (column.park candidate) (column'.park candidate') := by
  obtain ⟨branch, parked⟩ := column
  obtain ⟨branch', parked'⟩ := column'
  obtain ⟨hbranch, hparked⟩ := h
  refine ⟨hbranch, ?_⟩
  cases hparked with
  | none => exact .none
  | some hparked =>
      refine .some (List.rel_append hparked ?_)
      cases hcandidate with
      | none => exact .nil
      | some h => exact .cons h .nil

end ColumnTwins

/-- Rows with the same done to columns on both sides. -/
structure RowTwins (left right : Space) (row row' : Row) : Prop where
  settled : List.Forall₂ (Twins left right) row.settled row'.settled
  columns : List.Forall₂ (fun entry entry' => ColumnTwins left right entry.1 entry'.1 ∧
    Option.Rel (Twins left right) entry.2 entry'.2) row.columns row'.columns
  absorbed : row.absorbed = row'.absorbed

section

variable {conjoin : Meet} (hconjoin : Steady left right conjoin)

include hconjoin

omit habreast in
theorem meetRow_lockstep {branch branch' : Node} (hbranch : Twins left right branch branch')
    {columns columns' : List Column} (h : List.Forall₂ (ColumnTwins left right) columns columns') :
    Lockstep left right (meetRow conjoin branch columns) (meetRow conjoin branch' columns') (RowTwins left right) := by
  induction h with
  | nil => exact .pure ⟨.nil, .nil, rfl⟩
  | @cons column column' rest rest' hcolumn hrest ih =>
      have hidle : List.Forall₂ (fun entry entry' => ColumnTwins left right entry.1 entry'.1 ∧
          Option.Rel (Twins left right) entry.2 entry'.2) (rest.map (·, (none : Option Node)))
            (rest'.map (·, (none : Option Node))) := by
        rw [List.forall₂_map_left_iff, List.forall₂_map_right_iff]
        exact hrest.imp fun _ _ hc => ⟨hc, .none⟩
      have hpass {first first' : Column} (hfirst : ColumnTwins left right first first') {settled settled' : List Node}
          (hsettled : List.Forall₂ (Twins left right) settled settled') {candidate candidate' : Option Node}
          (hcandidate : Option.Rel (Twins left right) candidate candidate') :
          Lockstep left right
            (do
              let row ← meetRow conjoin branch rest
              let candidate := if row.absorbed then none else candidate
              return ⟨settled ++ row.settled, (first, candidate) :: row.columns, row.absorbed⟩)
            (do
              let row ← meetRow conjoin branch' rest'
              let candidate := if row.absorbed then none else candidate'
              return ⟨settled' ++ row.settled, (first', candidate) :: row.columns, row.absorbed⟩)
            (RowTwins left right) := by
        refine ih.map fun row row' hrow => ?_
        refine ⟨List.rel_append hsettled hrow.settled, .cons ⟨hfirst, ?_⟩ hrow.columns, hrow.absorbed⟩
        rw [hrow.absorbed]
        split
        · exact .none
        · exact hcandidate
      have hplain := hpass hcolumn .nil .none
      have hsettled : ColumnTwins left right ⟨column.branch, none⟩ ⟨column'.branch, none⟩ := ⟨hcolumn.branch, .none⟩
      unfold meetRow
      refine .ite (by rw [hcolumn.isNone_eq]) hplain (.ite (by rw [sameType_eq hbranch hcolumn.branch]) ?_ ?_)
      · exact .pure ⟨.cons hbranch .nil, .cons ⟨hsettled, .none⟩ hidle, rfl⟩
      refine (hconjoin.agree hbranch hcolumn.branch).onNode ?grows ?grows' (fun _ => hplain.grows)
        (fun _ => hplain.grows') (fun n n' hn => ?_) fun _ _ _ => hplain
      case grows | grows' =>
        intro n
        split
        · exact .pure _
        · split <;> exact .bind (meetRow_inherits .grows hconjoin.grows _ _) fun _ => .pure _
      refine .ite (by rw [sameType_eq hn hbranch]) (.pure ⟨.nil, .cons ⟨hcolumn, .some hbranch⟩ hidle, rfl⟩) ?_
      refine .ite (by rw [sameType_eq hn hcolumn.branch]) ?_ (hpass hcolumn .nil (.some hn))
      exact hpass hsettled (.cons hcolumn.branch .nil) .none

omit habreast in
theorem meetRows_lockstep {branches branches' : List Node} (h : List.Forall₂ (Twins left right) branches branches')
    {columns columns' : List Column} (hcolumns : List.Forall₂ (ColumnTwins left right) columns columns') :
    Lockstep left right (meetRows conjoin branches columns) (meetRows conjoin branches' columns')
      (List.Forall₂ (Twins left right)) := by
  induction h generalizing columns columns' with
  | nil => exact .pure (List.rel_flatMap hcolumns fun _ _ hcolumn => hcolumn.getD_parked)
  | cons hbranch _ ih =>
      refine (meetRow_lockstep hconjoin hbranch hcolumns).bind
        (fun _ => .bind (meetRows_inherits .grows hconjoin.grows _ _) fun _ => .pure _)
        (fun _ => .bind (meetRows_inherits .grows hconjoin.grows _ _) fun _ => .pure _) fun row row' hrow => ?_
      have hparked : List.Forall₂ (ColumnTwins left right) row.after row'.after := by
        unfold Row.after
        rw [List.forall₂_map_left_iff, List.forall₂_map_right_iff]
        exact hrow.columns.imp fun _ _ hentry => hentry.1.park hentry.2
      exact (ih hparked).map fun _ _ hrest => List.rel_append hrow.settled hrest

end

-- ---------------------------------------------------------------------------
-- Conjunctions
-- ---------------------------------------------------------------------------

section

variable [Behaviour] (hblind : BlindToSign)

include hblind

theorem meetUnions_lockstep {meet : Meet} (hmeet : Steady left right meet) (hl : Twins left right l l')
    (hr : Twins left right r r') :
    Lockstep left right (meetUnions meet l r) (meetUnions meet l' r') (Intersected.Related (Twins left right)) := by
  have hcontent := hl.content habreast
  have hmorphs := meetMorphs_lockstep habreast hblind hmeet hl hr
  have hconjoin := conjoinBranches_steady habreast hblind hmeet
  obtain ⟨hbranches, hordered⟩ := branches_related habreast hr
  unfold meetUnions
  generalize l.content = c at hcontent ⊢
  generalize l'.content = c' at hcontent ⊢
  cases hcontent with
  | @union branches branches' ordered h =>
      dsimp only
      rw [forall₂_isEmpty h, forall₂_isEmpty hbranches, hordered]
      split
      · exact .pure (.node hl)
      · have hcolumns : List.Forall₂ (ColumnTwins left right) (r.branches.1.map fun branch => ⟨branch, some []⟩)
            (r'.branches.1.map fun branch => ⟨branch, some []⟩) := by
          rw [List.forall₂_map_left_iff, List.forall₂_map_right_iff]
          exact hbranches.imp fun _ _ hbranch => ⟨hbranch, .some .nil⟩
        refine (meetRows_lockstep hconjoin h hcolumns).bind ?grows ?grows' fun found found' hfound => ?_
        case grows | grows' =>
          intro found
          split
          · exact .pure _
          · exact .bind (assembleUnionBy_inherits .grows hconjoin.grows _ _ _) fun _ => .pure _
        refine .ite (by rw [forall₂_isEmpty hfound]) (.pure (.disjoint (Disjoint.related_between _ hl hr))) ?_
        exact (assembleUnionBy_lockstep habreast hconjoin hfound _).map fun _ _ => .node
      · exact .pure (.disjoint (Disjoint.related_between _ hl hr))
  | _ => exact hmorphs

/-- Conjoining nodes keeps in step to any depth. -/
theorem conjoinWithin_steady (depth : Nat) : Steady left right (conjoinWithin depth) := by
  induction depth with
  | zero => exact ⟨fun _ _ => .throw _, fun _ _ => .internalError _ _⟩
  | succ depth ih =>
      exact conjoinBy_steady habreast hblind ih
        ⟨meetUnions_inherits .grows ih.grows, meetUnions_lockstep habreast hblind ih⟩

end

end Node

end SchemaAlgebra
