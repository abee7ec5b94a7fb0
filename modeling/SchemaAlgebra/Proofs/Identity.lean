-- SUMMARY: Semantic identity: nodes that are written alike have the same plain node.
import SchemaAlgebra.Proofs.NodeText

/-!
# Identity of nodes

A node is written if its texts, and everything else that was derived from its
content, are the ones its content has. Among nodes that are written and exact
throughout, equal texts mean equal plain nodes: this is what allows a space to
answer with the node that it already has.
-/

namespace SchemaAlgebra

theorem Kind.order_injective {a b : Kind} (h : a.order = b.order) : a = b := by
  revert h
  cases a <;> cases b <;> decide

namespace Node

-- ---------------------------------------------------------------------------
-- Reachable nodes
-- ---------------------------------------------------------------------------

/-- The nodes that are found in a node, itself included. -/
inductive Reaches : Node → Node → Prop where
  | refl (node : Node) : Reaches node node
  | child {node child found : Node} (hchild : child ∈ node.children) (h : Reaches child found) : Reaches node found

/-- What holds of a node and everything in it. -/
def Everywhere (P : Node → Prop) (node : Node) : Prop := ∀ found, node.Reaches found → P found

theorem everywhere_iff {P : Node → Prop} {node : Node} :
    node.Everywhere P ↔ P node ∧ ∀ c ∈ node.children, c.Everywhere P := by
  constructor
  · intro h
    exact ⟨h node (.refl node), fun c hc found hfound => h found (.child hc hfound)⟩
  · rintro ⟨hself, hchildren⟩ found hfound
    cases hfound with
    | refl => exact hself
    | child hc hfound => exact hchildren _ hc found hfound

theorem Everywhere.self {P : Node → Prop} {node : Node} (h : node.Everywhere P) : P node :=
  (everywhere_iff.mp h).1

theorem Everywhere.child {P : Node → Prop} {node c : Node} (h : node.Everywhere P) (hc : c ∈ node.children) :
    c.Everywhere P :=
  (everywhere_iff.mp h).2 c hc

-- ---------------------------------------------------------------------------
-- Written nodes
-- ---------------------------------------------------------------------------

/-- A node whose profile is the one its content has with the names of a registry. -/
structure Written (registry : Registry) (node : Node) : Prop where
  json : node.json = node.content.json registry true node.caption
  typeJson : node.typeJson = node.content.json registry false node.caption
  id : node.id = node.content.identifier node.json
  typeId : node.typeId = node.content.identifier node.typeJson
  includesMorph : node.includesMorph = (node.kind = .morph || node.children.any Node.includesMorph)
  discriminant : ∀ d, node.discriminant = some d →
    ∃ branches ordered, node.content = .union branches ordered ∧ Discriminant.ofBranches? branches = some d
  sound : node.content.Sound
  known : ∀ thing ∈ node.content.identities, registry.Knows thing

theorem Written.extends {later registry : Registry} {node : Node} (h : node.Written registry)
    (hext : later.Extends registry) : node.Written later where
  json := by rw [h.json, Content.json_extends hext h.known]
  typeJson := by rw [h.typeJson, Content.json_extends hext h.known]
  id := h.id
  typeId := h.typeId
  includesMorph := h.includesMorph
  discriminant := h.discriminant
  sound := h.sound
  known := fun thing hthing => (h.known thing hthing).mono hext

theorem Written.childJson {registry : Registry} {node : Node} (h : node.Written registry) (captioned : Bool) :
    Content.childJson captioned node = node.content.json registry captioned node.caption := by
  cases captioned
  · exact h.typeJson
  · exact h.json

/-- The text of a written node is one that can be written. -/
theorem isFinite_childJson {registry : Registry} {node : Node} (h : node.Everywhere (Written registry))
    (captioned : Bool) : (Content.childJson captioned node).isFinite = true := by
  induction node using induct with
  | step content caption profile ih =>
      rw [h.self.childJson]
      refine Content.isFinite_json ?_
      intro c hc
      exact ih c hc (h.child hc)

theorem kind_eq_of_identifier {a b : Content Node} {json json' : Json}
    (h : a.identifier json = b.identifier json') : a.kind = b.kind := by
  have hlist := congrArg String.toList h
  simp only [Content.identifier, String.toList_append] at hlist
  have hname (kind : Kind) : ':' ∉ kind.name.toList := by
    cases kind <;> decide
  have hsplit := congrArg (List.takeWhile (· ≠ ':')) hlist
  have htake (kind : Kind) (rest : List Char) :
      (kind.name.toList ++ ":".toList ++ rest).takeWhile (· ≠ ':') = kind.name.toList := by
    rw [List.append_assoc, List.takeWhile_append_of_pos]
    · simp
    · intro c hc
      simp only [ne_eq, decide_eq_true_eq]
      rintro rfl
      exact hname kind hc
  rw [htake, htake] at hsplit
  generalize a.kind = k at hsplit ⊢
  generalize b.kind = k' at hsplit ⊢
  revert hsplit
  cases k <;> cases k' <;> first | exact fun _ => rfl | decide

/-- An identifier shows the kind and the JSON that it was made from. -/
theorem json_eq_of_identifier {a b : Content Node} {json json' : Json} (hjson : json.isFinite = true)
    (hjson' : json'.isFinite = true) (h : a.identifier json = b.identifier json') : json = json' := by
  have hkind := kind_eq_of_identifier h
  rw [Content.identifier, Content.identifier, hkind] at h
  exact Json.compact_injective hjson hjson' (Registry.append_left_injective h)

-- ---------------------------------------------------------------------------
-- Constraints by kind
-- ---------------------------------------------------------------------------

theorem filter_kind_append {constraints : List Node} {kind : Kind}
    (hsorted : constraints.Pairwise fun a b => a.kind.order ≤ b.kind.order)
    (hleast : ∀ c ∈ constraints, kind.order ≤ c.kind.order) :
    constraints.filter (fun c => c.kind = kind) ++ constraints.filter (fun c => c.kind ≠ kind) = constraints := by
  induction constraints with
  | nil => rfl
  | cons c rest ih =>
      have hrest := ih hsorted.of_cons fun d hd => hleast d (List.mem_cons_of_mem _ hd)
      by_cases hc : c.kind = kind
      · simpa [hc] using hrest
      · have hlt : kind.order < c.kind.order := by
          have hle := hleast c List.mem_cons_self
          have hne : kind.order ≠ c.kind.order := fun heq => hc (Kind.order_injective heq.symm)
          omega
        have hnone : rest.filter (fun c => c.kind = kind) = [] := by
          refine List.filter_eq_nil_iff.mpr fun d hd => ?_
          have hle := List.rel_of_pairwise_cons hsorted hd
          simp only [decide_eq_true_eq]
          rintro rfl
          omega
        rw [hnone] at hrest
        simpa [hc, hnone] using hrest

/-- Sorted constraints are those of the first kind, then those of the second, and so on. -/
theorem flatMap_filter_kind {kinds : List Kind} (hkinds : kinds.Pairwise fun k k' => k.order < k'.order)
    {constraints : List Node} (hsorted : constraints.Pairwise fun a b => a.kind.order ≤ b.kind.order)
    (hmem : ∀ c ∈ constraints, c.kind ∈ kinds) :
    (kinds.flatMap fun kind => constraints.filter fun c => c.kind = kind) = constraints := by
  induction kinds generalizing constraints with
  | nil =>
      cases constraints with
      | nil => rfl
      | cons c rest => exact absurd (hmem c List.mem_cons_self) List.not_mem_nil
  | cons kind rest ih =>
      have hafter := (List.pairwise_cons.mp hkinds).1
      have hleast : ∀ c ∈ constraints, kind.order ≤ c.kind.order := by
        intro c hc
        rcases List.mem_cons.mp (hmem c hc) with heq | hin
        · rw [heq]
        · exact le_of_lt (hafter _ hin)
      have hothers : ∀ c ∈ constraints.filter fun c => c.kind ≠ kind, c.kind ∈ rest := by
        intro c hc
        obtain ⟨hc, hne⟩ := List.mem_filter.mp hc
        rcases List.mem_cons.mp (hmem c hc) with heq | hin
        · simp [heq] at hne
        · exact hin
      have hrest := ih hkinds.of_cons (hsorted.sublist List.filter_sublist) hothers
      have hsame : (rest.flatMap fun k => constraints.filter fun c => c.kind = k) =
          rest.flatMap fun k => (constraints.filter fun c => c.kind ≠ kind).filter fun c => c.kind = k := by
        refine List.flatMap_congr fun k hk => ?_
        rw [List.filter_filter]
        refine List.filter_congr fun c _ => ?_
        have hne : k ≠ kind := by
          rintro rfl
          exact absurd (hafter k hk) (lt_irrefl _)
        by_cases hc : c.kind = k <;> simp [hc, hne]
      rw [List.flatMap_cons, hsame, hrest]
      exact filter_kind_append hsorted hleast

theorem length_filter_kind_le_one {constraints : List Node} {kind : Kind}
    (h : constraints.Pairwise fun a b => ¬ (a.kind = kind ∧ b.kind = kind)) :
    (constraints.filter fun c => c.kind = kind).length ≤ 1 := by
  have hpairs := h.sublist (List.filter_sublist (p := fun c => decide (c.kind = kind)))
  match hfilter : constraints.filter fun c => c.kind = kind with
  | [] => rw [hfilter]; exact Nat.zero_le 1
  | [_] => rw [hfilter]; exact le_rfl
  | a :: b :: rest =>
      have hkind (c : Node) (hc : c ∈ constraints.filter fun c => c.kind = kind) : c.kind = kind := by
        simpa using (List.mem_filter.mp hc).2
      have ha := hkind a (by rw [hfilter]; exact List.mem_cons_self)
      have hb := hkind b (by rw [hfilter]; exact List.mem_cons_of_mem _ List.mem_cons_self)
      rw [hfilter] at hpairs
      exact absurd ⟨ha, hb⟩ (List.rel_of_pairwise_cons hpairs List.mem_cons_self)

theorem exists_max {node : Node} (h : node.kind = .max) : ∃ bound, node.content = .max bound := by
  cases hc : node.content with
  | max bound => exact ⟨bound, rfl⟩
  | _ => rw [kind, hc] at h; cases h

theorem exists_min {node : Node} (h : node.kind = .min) : ∃ bound, node.content = .min bound := by
  cases hc : node.content with
  | min bound => exact ⟨bound, rfl⟩
  | _ => rw [kind, hc] at h; cases h

/-- Bounds that apply to one basis are on one axis, so there is at most one on either side. -/
theorem Settled.one_max {basis : Option Node} {constraints : List Node} (h : Settled basis constraints) :
    constraints.Pairwise fun a b => ¬ (a.kind = .max ∧ b.kind = .max) := by
  have happlies := firstInapplicable?_eq_none.mp h.applicable
  refine (List.pairwise_append.mp h.apart).2.1.imp_of_mem ?_
  rintro a b ha hb hapart ⟨hmax, hmax'⟩
  obtain ⟨bound, hbound⟩ := exists_max hmax
  obtain ⟨bound', hbound'⟩ := exists_max hmax'
  have haxis := axisApplies_unique (axisApplies_of_max hbound (happlies a ha))
    (axisApplies_of_max hbound' (happlies b hb))
  have hslot : a.slot? = some (.max bound.axis) := by rw [slot?, hbound]; rfl
  have hslot' : b.slot? = some (.max bound.axis) := by rw [slot?, hbound', haxis]; rfl
  exact absurd (hapart.slots _ hslot hslot').1 nofun

theorem Settled.one_min {basis : Option Node} {constraints : List Node} (h : Settled basis constraints) :
    constraints.Pairwise fun a b => ¬ (a.kind = .min ∧ b.kind = .min) := by
  have happlies := firstInapplicable?_eq_none.mp h.applicable
  refine (List.pairwise_append.mp h.apart).2.1.imp_of_mem ?_
  rintro a b ha hb hapart ⟨hmin, hmin'⟩
  obtain ⟨bound, hbound⟩ := exists_min hmin
  obtain ⟨bound', hbound'⟩ := exists_min hmin'
  have haxis := axisApplies_unique (axisApplies_of_min hbound (happlies a ha))
    (axisApplies_of_min hbound' (happlies b hb))
  have hslot : a.slot? = some (.min bound.axis) := by rw [slot?, hbound]; rfl
  have hslot' : b.slot? = some (.min bound.axis) := by rw [slot?, hbound', haxis]; rfl
  exact absurd (hapart.slots _ hslot hslot').1 nofun

theorem Settled.one_of_kind {basis : Option Node} {constraints : List Node} (h : Settled basis constraints)
    (hexact : (Content.intersection basis constraints).Exact) {kind : Kind} (hrefines : kind.isRefinement = true)
    (hkind : kind.isRepeatable = false) : (constraints.filter fun c => c.kind = kind).length ≤ 1 := by
  cases kind with
  | divisor => exact length_filter_kind_le_one hexact
  | max => exact length_filter_kind_le_one h.one_max
  | min => exact length_filter_kind_le_one h.one_min
  | pattern => cases hkind
  | predicate => cases hkind
  | required => cases hkind
  | optional => cases hkind
  | _ => cases hrefines

-- ---------------------------------------------------------------------------
-- Equal texts
-- ---------------------------------------------------------------------------

variable {registry : Registry} {captioned : Bool}

theorem plain_eq_of_content {a b : Node}
    (h : (a.content.map (plain registry)).unsigned = (b.content.map (plain registry)).unsigned) :
    a.plain registry = b.plain registry := by
  rw [plain_eq, h, ← plain_eq]

/-- What an intersection writes for its constraints of one kind determines all that their own texts do. -/
theorem map_eq_of_constraintJson? {μ : Type} {f : Node → μ} {implied : BoundAxis} {kind : Kind}
    {constraints constraints' : List Node} (hwritten : ∀ c ∈ constraints, c.Written registry)
    (hwritten' : ∀ c ∈ constraints', c.Written registry) (hkind : ∀ c ∈ constraints, c.kind = kind)
    (hkind' : ∀ c ∈ constraints', c.kind = kind)
    (hsame : ∀ x ∈ constraints, ∀ y ∈ constraints',
      Content.childJson captioned x = Content.childJson captioned y → f x = f y)
    (hone : kind.isRepeatable = false → constraints.length ≤ 1 ∧ constraints'.length ≤ 1)
    (h : Content.constraintJson? captioned implied kind constraints =
      Content.constraintJson? captioned implied kind constraints') :
    constraints.map f = constraints'.map f := by
  cases constraints with
  | nil =>
      cases constraints' with
      | nil => rfl
      | cons first rest => cases h
  | cons first rest =>
      cases constraints' with
      | nil => cases h
      | cons first' rest' =>
          have hfirst := hkind first List.mem_cons_self
          have hfirst' := hkind' first' List.mem_cons_self
          have hchild := (hwritten first List.mem_cons_self).childJson captioned
          have hchild' := (hwritten' first' List.mem_cons_self).childJson captioned
          have hjson := Option.some.inj h
          cases hrepeatable : kind.isRepeatable with
          | true =>
              rw [hrepeatable, if_pos rfl, if_pos rfl] at hjson
              exact map_eq_map_of_determined hsame (Json.array.inj hjson)
          | false =>
              obtain ⟨hle, hle'⟩ := hone hrepeatable
              rw [List.length_cons, Nat.succ_le_succ_iff, Nat.le_zero, List.length_eq_zero_iff] at hle hle'
              subst hle hle'
              rw [hrepeatable, if_neg (by decide), if_neg (by decide)] at hjson
              have heq : f first = f first' := by
                refine hsame first List.mem_cons_self first' List.mem_cons_self ?_
                by_cases hmax : kind = .max
                · obtain ⟨bound, hc⟩ := exists_max (hfirst.trans hmax)
                  obtain ⟨bound', hc'⟩ := exists_max (hfirst'.trans hmax)
                  rw [hc, hc'] at hjson
                  rw [hchild, hchild', hc, hc']
                  exact Content.bound_json_eq hjson .value
                by_cases hmin : kind = .min
                · obtain ⟨bound, hc⟩ := exists_min (hfirst.trans hmin)
                  obtain ⟨bound', hc'⟩ := exists_min (hfirst'.trans hmin)
                  rw [hc, hc'] at hjson
                  rw [hchild, hchild', hc, hc']
                  exact Content.bound_json_eq hjson .value
                split at hjson
                · rename_i hc; exact absurd (hfirst.symm.trans (congrArg Content.kind hc)) hmax
                · rename_i hc; exact absurd (hfirst.symm.trans (congrArg Content.kind hc)) hmin
                · split at hjson
                  · rename_i hc; exact absurd (hfirst'.symm.trans (congrArg Content.kind hc)) hmax
                  · rename_i hc; exact absurd (hfirst'.symm.trans (congrArg Content.kind hc)) hmin
                  · exact hjson
              rw [List.map_singleton, List.map_singleton, heq]

theorem Settled.orders {basis : Option Node} {constraints : List Node} (h : Settled basis constraints) :
    constraints.Pairwise fun a b => a.kind.order ≤ b.kind.order := by
  refine h.sorted.imp ?_
  intro a b hle
  rcases constraintLE_iff.mp hle with hlt | ⟨heq, -⟩
  · exact le_of_lt hlt
  · exact le_of_eq heq

/-- What is held where only roots can stand is not a refinement. -/
theorem branch_not_refinement {node : Node} (h : node.kind.isBranch = true) : node.kind.isRefinement = false := by
  generalize node.kind = kind at h
  cases kind <;> first | rfl | cases h

theorem basis_not_refinement {node : Node} (h : node.isBasis = true) : node.kind.isRefinement = false := by
  rw [isBasis] at h
  generalize node.kind = kind at h
  cases kind <;> first | rfl | cases h

theorem input_not_refinement {node : Node} (h : node.kind = .intersection ∨ node.isBasis = true) :
    node.kind.isRefinement = false := by
  rcases h with h | h
  · rw [h]; rfl
  · exact basis_not_refinement h

@[simp] theorem basisProto?_plain (registry : Registry) (node : Node) :
    (node.plain registry).basisProto? = node.basisProto? := by
  unfold basisProto?
  rw [content_plain]
  cases node.content <;> rfl

@[simp] theorem basisDomain?_plain (registry : Registry) (node : Node) :
    (node.plain registry).basisDomain? = node.basisDomain? := by
  unfold basisDomain?
  rw [content_plain]
  cases node.content with
  | unit v => cases v <;> rfl
  | _ => rfl

theorem impliedAxis_eq_of_plain {x y : Node} (h : x.plain registry = y.plain registry) :
    impliedAxis (some x) = impliedAxis (some y) := by
  have hproto := basisProto?_plain registry x
  have hdomain := basisDomain?_plain registry x
  rw [h, basisProto?_plain] at hproto
  rw [h, basisDomain?_plain] at hdomain
  simp only [impliedAxis, hproto, hdomain]

theorem mem_refinements {node : Node} (h : node.isRefinement = true) : node.kind ∈ Kind.refinements := by
  rw [isRefinement] at h
  generalize node.kind = kind at h
  cases kind <;> first | decide | cases h

/-- Roots with one text are of one kind. -/
theorem kind_eq_of_root {x y : Node} (hx : x.Written registry) (hy : y.Written registry)
    (hroot : x.kind.isRefinement = false) (hroot' : y.kind.isRefinement = false)
    (h : Content.childJson captioned x = Content.childJson captioned y) : x.kind = y.kind := by
  have hkind := @Content.rootKind?_json registry captioned x.caption x.content hroot
  have hkind' := @Content.rootKind?_json registry captioned y.caption y.content hroot'
  rw [← hx.childJson] at hkind
  rw [← hy.childJson, ← h, hkind] at hkind'
  exact Option.some.inj hkind'

section

variable {μ : Type} {f : Node → μ} {content content' : Content Node}
  (hsame : ∀ x ∈ content.children, ∀ y ∈ content'.children, x.kind = y.kind →
    Content.childJson captioned x = Content.childJson captioned y → f x = f y)
  (himplied : ∀ x y : Node, f x = f y → impliedAxis (some x) = impliedAxis (some y))

include hsame himplied

theorem intersection_eq_of_json {basis basis' : Option Node} {constraints constraints' : List Node}
    (hcontent : content = .intersection basis constraints)
    (hcontent' : content' = .intersection basis' constraints')
    (hwritten : ∀ x ∈ content.children, x.Written registry) (hwritten' : ∀ y ∈ content'.children, y.Written registry)
    (hroot : ∀ x ∈ content.children, ∀ y ∈ content'.children, x.kind.isRefinement = false →
      y.kind.isRefinement = false → Content.childJson captioned x = Content.childJson captioned y → f x = f y)
    (hsettled : Settled basis constraints) (hsettled' : Settled basis' constraints')
    (hexact : (Content.intersection basis constraints).Exact)
    (hexact' : (Content.intersection basis' constraints').Exact)
    (hbasis : basis.map (Content.childJson captioned) = basis'.map (Content.childJson captioned))
    (hrest : ∀ kind, kind.isRefinement = true →
      Content.constraintJson? captioned (impliedAxis basis) kind (constraints.filter fun c => c.kind = kind) =
        Content.constraintJson? captioned (impliedAxis basis') kind (constraints'.filter fun c => c.kind = kind)) :
    basis.map f = basis'.map f ∧ constraints.map f = constraints'.map f := by
  subst hcontent hcontent'
  have hbases : basis.map f = basis'.map f ∧ impliedAxis basis = impliedAxis basis' := by
    cases basis with
    | none =>
        cases basis' with
        | none => exact ⟨rfl, rfl⟩
        | some b' => cases hbasis
    | some b =>
        cases basis' with
        | none => cases hbasis
        | some b' =>
            have heq := hroot b List.mem_cons_self b' List.mem_cons_self
              (basis_not_refinement (hsettled.isBasis b rfl)) (basis_not_refinement (hsettled'.isBasis b' rfl))
              (Option.some.inj hbasis)
            rw [Option.map_some, Option.map_some, heq]
            exact ⟨rfl, himplied b b' heq⟩
  refine ⟨hbases.1, ?_⟩
  have hkinds : Kind.refinements.Pairwise fun k k' => k.order < k'.order := by decide
  have hsplit := flatMap_filter_kind hkinds hsettled.orders fun c hc => mem_refinements (hsettled.areRefinements c hc)
  have hsplit' :=
    flatMap_filter_kind hkinds hsettled'.orders fun c hc => mem_refinements (hsettled'.areRefinements c hc)
  rw [← hsplit, ← hsplit', List.map_flatMap, List.map_flatMap]
  refine List.flatMap_congr fun kind hkind => ?_
  have hrefines : kind.isRefinement = true := by
    revert hkind
    cases kind <;> decide
  have hfiltered (constraints : List Node) : ∀ c ∈ constraints.filter fun c => c.kind = kind, c.kind = kind := by
    intro c hc
    simpa using (List.mem_filter.mp hc).2
  have hmem (x : Node) (hx : x ∈ constraints.filter fun c => c.kind = kind) :
      x ∈ (Content.intersection basis constraints).children :=
    List.mem_append_right basis.toList (List.mem_of_mem_filter hx)
  have hmem' (y : Node) (hy : y ∈ constraints'.filter fun c => c.kind = kind) :
      y ∈ (Content.intersection basis' constraints').children :=
    List.mem_append_right basis'.toList (List.mem_of_mem_filter hy)
  have hjson := hrest kind hrefines
  rw [← hbases.2] at hjson
  refine map_eq_of_constraintJson? (fun x hx => hwritten x (hmem x hx)) (fun y hy => hwritten' y (hmem' y hy))
    (hfiltered constraints) (hfiltered constraints') ?_ ?_ hjson
  · intro x hx y hy hxy
    exact hsame x (hmem x hx) y (hmem' y hy) ((hfiltered _ x hx).trans (hfiltered _ y hy).symm) hxy
  · intro hone
    exact ⟨hsettled.one_of_kind hexact hrefines hone, hsettled'.one_of_kind hexact' hrefines hone⟩

/-- Contents of one kind with one text are the same in all that the texts of their nodes determine. -/
theorem content_eq_of_json (hlawful : registry.Lawful) (hwritten : ∀ x ∈ content.children, x.Written registry)
    (hwritten' : ∀ y ∈ content'.children, y.Written registry) (hsound : content.Sound) (hsound' : content'.Sound)
    (hknown : ∀ thing ∈ content.identities, registry.Knows thing)
    (hknown' : ∀ thing ∈ content'.identities, registry.Knows thing) (hexact : content.Exact)
    (hexact' : content'.Exact) (hkind : content.kind = content'.kind) {caption other : Caption}
    (h : content.json registry captioned caption = content'.json registry captioned other) :
    (content.map f).unsigned = (content'.map f).unsigned := by
  have hroot : ∀ x ∈ content.children, ∀ y ∈ content'.children, x.kind.isRefinement = false →
      y.kind.isRefinement = false → Content.childJson captioned x = Content.childJson captioned y →
        f x = f y := by
    intro x hx y hy hrx hry hxy
    exact hsame x hx y hy (kind_eq_of_root (hwritten x hx) (hwritten' y hy) hrx hry hxy) hxy
  cases content with
  | union branches ordered =>
      cases content' with
      | union branches' ordered' =>
          obtain ⟨hbranches, rfl⟩ := Content.union_of_json h
          have hmap : branches.map f = branches'.map f := by
            refine map_eq_map_of_determined ?_ hbranches
            intro x hx y hy
            exact hroot x hx y hy (branch_not_refinement (hsound x hx)) (branch_not_refinement (hsound' y hy))
          rw [Content.map, Content.map, hmap]
      | _ => cases hkind
  | morph input output transforms =>
      cases content' with
      | morph input' output' transforms' =>
          obtain ⟨hin, hout, rfl⟩ := Content.morph_of_json hlawful hknown hknown' h
          have hinput : f input = f input' :=
            hroot input List.mem_cons_self input' List.mem_cons_self (input_not_refinement hsound.1)
              (input_not_refinement hsound'.1) hin
          have houtput : output.map f = output'.map f := by
            cases output with
            | none =>
                cases output' with
                | none => rfl
                | some o' => cases hout
            | some o =>
                cases output' with
                | none => cases hout
                | some o' =>
                    have heq := hroot o (List.mem_cons_of_mem _ List.mem_cons_self) o'
                      (List.mem_cons_of_mem _ List.mem_cons_self) (hsound.2.1 o rfl) (hsound'.2.1 o' rfl)
                      (Option.some.inj hout)
                    rw [Option.map_some, Option.map_some, heq]
          rw [Content.map, Content.map, hinput, houtput]
      | _ => cases hkind
  | intersection basis constraints =>
      cases content' with
      | intersection basis' constraints' =>
          obtain ⟨hbasis, hrest⟩ := Content.intersection_of_json h
          obtain ⟨hb, hc⟩ := intersection_eq_of_json hsame himplied rfl rfl hwritten hwritten' hroot hsound hsound' hexact
            hexact' hbasis hrest
          rw [Content.map, Content.map, hb, hc]
      | _ => cases hkind
  | unit v =>
      cases content' with
      | unit v' => exact congrArg Content.unit (Content.unit_of_json hlawful hknown hknown' h)
      | _ => cases hkind
  | proto p =>
      cases content' with
      | proto p' =>
          have heq := Content.proto_of_json hlawful (hknown _ List.mem_cons_self) (hknown' _ List.mem_cons_self) h
          rw [heq]
      | _ => cases hkind
  | domain d =>
      cases content' with
      | domain d' => rw [Content.domain_of_json h]
      | _ => cases hkind
  | divisor d =>
      cases content' with
      | divisor d' => rw [Content.divisor_of_json h]
      | _ => cases hkind
  | max bound =>
      cases content' with
      | max bound' => exact congrArg Content.max (Content.bound_of_json h)
      | _ => cases hkind
  | min bound =>
      cases content' with
      | min bound' => exact congrArg Content.min (Content.bound_of_json h)
      | _ => cases hkind
  | pattern p =>
      cases content' with
      | pattern p' => rw [Content.pattern_of_json hsound hsound' h]
      | _ => cases hkind
  | predicate p =>
      cases content' with
      | predicate p' =>
          have heq := Content.predicate_of_json hlawful (hknown _ List.mem_cons_self) (hknown' _ List.mem_cons_self) h
          rw [heq]
      | _ => cases hkind
  | required key value =>
      cases content' with
      | required key' value' =>
          obtain ⟨rfl, hvalue⟩ := @Content.prop_of_json registry captioned caption other hlawful _ _ _ _
            (Content.known_required hknown) (Content.known_required hknown') h
          have hplain := hroot value List.mem_cons_self value' List.mem_cons_self hexact hexact' hvalue
          rw [Content.map, Content.map, hplain]
      | _ => cases hkind
  | optional key value =>
      cases content' with
      | optional key' value' =>
          obtain ⟨rfl, hvalue⟩ := @Content.prop_of_json registry captioned caption other hlawful _ _ _ _
            (Content.known_optional hknown) (Content.known_optional hknown') h
          have hplain := hroot value List.mem_cons_self value' List.mem_cons_self hexact hexact' hvalue
          rw [Content.map, Content.map, hplain]
      | _ => cases hkind

end

/-- Nodes of one kind with one text have one plain node. -/
theorem plain_eq_of_childJson (hlawful : registry.Lawful) {a b : Node}
    (ha : a.Everywhere (Written registry)) (hb : b.Everywhere (Written registry))
    (hexact : a.Everywhere fun n => n.content.Exact) (hexact' : b.Everywhere fun n => n.content.Exact)
    (hkind : a.kind = b.kind) (h : Content.childJson captioned a = Content.childJson captioned b) :
    a.plain registry = b.plain registry := by
  induction a using induct generalizing b with
  | step content caption profile ih =>
      have hsame : ∀ x ∈ content.children, ∀ y ∈ b.content.children, x.kind = y.kind →
          Content.childJson captioned x = Content.childJson captioned y → x.plain registry = y.plain registry := by
        intro x hx y hy
        exact ih x hx (ha.child hx) (hb.child hy) (hexact.child hx) (hexact'.child hy)
      rw [ha.self.childJson, hb.self.childJson] at h
      exact plain_eq_of_content (content_eq_of_json hsame (fun _ _ => impliedAxis_eq_of_plain) hlawful
        (fun x hx => (ha.child hx).self) (fun y hy => (hb.child hy).self) ha.self.sound hb.self.sound
        ha.self.known hb.self.known hexact.self
        hexact'.self hkind h)

/-- Nodes with one type identifier have one plain node. -/
theorem plain_eq_of_typeId (hlawful : registry.Lawful) {a b : Node}
    (ha : a.Everywhere (Written registry)) (hb : b.Everywhere (Written registry))
    (hexact : a.Everywhere fun n => n.content.Exact) (hexact' : b.Everywhere fun n => n.content.Exact)
    (h : a.typeId = b.typeId) : a.plain registry = b.plain registry := by
  rw [ha.self.typeId, hb.self.typeId] at h
  have hjson := json_eq_of_identifier (isFinite_childJson ha false) (isFinite_childJson hb false) h
  exact plain_eq_of_childJson hlawful ha hb hexact hexact' (kind_eq_of_identifier h) hjson

-- ---------------------------------------------------------------------------
-- Texts of plain nodes
-- ---------------------------------------------------------------------------

omit captioned in
/-- An intersection writes the same for plain rules of a kind, if these are written the same. -/
theorem constraintField_plain {implied : BoundAxis} {constraints : List Node} {kind : Kind}
    (h : ∀ c ∈ constraints, (c.plain registry).typeJson = c.typeJson) :
    Content.constraintField false implied (constraints.map (plain registry)) kind =
      Content.constraintField false implied constraints kind := by
  have hfilter : (constraints.map (plain registry)).filter (fun c => c.kind = kind) =
      (constraints.filter fun c => c.kind = kind).map (plain registry) := by
    rw [List.filter_map]
    exact congrArg _ (List.filter_congr fun c _ => by simp)
  rw [Content.constraintField_eq, Content.constraintField_eq, hfilter]
  have hmem : ∀ c ∈ constraints.filter fun c => c.kind = kind, (c.plain registry).typeJson = c.typeJson :=
    fun c hc => h c (List.mem_of_mem_filter hc)
  cases hrules : constraints.filter fun c => c.kind = kind with
  | nil => rfl
  | cons first rest =>
      rw [hrules] at hmem
      have htexts : ((first :: rest).map (plain registry)).map (Content.childJson false) =
          (first :: rest).map (Content.childJson false) := by
        rw [List.map_map]
        exact List.map_congr_left hmem
      have hfirst : Content.childJson false (first.plain registry) = Content.childJson false first :=
        hmem first List.mem_cons_self
      rw [Content.constraintJson?, List.map_cons, Content.constraintJson?, ← List.map_cons, htexts, content_plain, hfirst]
      cases first.content with
      | max bound =>
          simp only [Content.map, Content.unsigned, Content.bound_json_unsigned]
          rw [Content.bound_json_uncaptioned bound implied _ first.caption]
      | min bound =>
          simp only [Content.map, Content.unsigned, Content.bound_json_unsigned]
          rw [Content.bound_json_uncaptioned bound implied _ first.caption]
      | _ => rfl

omit captioned in
/-- A content is written the same with plain nodes, if these are written the same. -/
theorem json_plain {content : Content Node} (h : ∀ c ∈ content.children, (c.plain registry).typeJson = c.typeJson)
    (caption : Caption) :
    (content.map (plain registry)).unsigned.json registry false .none = content.json registry false caption := by
  rw [Content.json_unsigned, Content.json_uncaptioned _ _ .none caption]
  have hvalue {value : Node} (hmem : value ∈ content.children) :
      Content.childJson false (value.plain registry) = Content.childJson false value := h value hmem
  cases content with
  | union branches ordered =>
      have hbranches : (branches.map (plain registry)).map (Content.childJson false) =
          branches.map (Content.childJson false) := by
        rw [List.map_map]
        exact List.map_congr_left h
      rw [Content.map, Content.json, Content.json, hbranches]
  | morph input output transforms =>
      cases output with
      | none => simp only [Content.map, Content.json, hvalue List.mem_cons_self, Option.map_none]
      | some output =>
          simp only [Content.map, Content.json, hvalue List.mem_cons_self, Option.map_some, Option.toList_some,
            List.map_cons, hvalue (List.mem_cons_of_mem input List.mem_cons_self), List.map_nil]
  | intersection basis constraints =>
      have himplied : impliedAxis (basis.map (plain registry)) = impliedAxis basis := by
        cases basis with
        | none => rfl
        | some b => simp only [Option.map_some, impliedAxis, basisProto?_plain, basisDomain?_plain]
      have hbasis : ((basis.map (plain registry)).toList.map fun b => ("basis", Content.childJson false b)) =
          basis.toList.map fun b => ("basis", Content.childJson false b) := by
        cases basis with
        | none => rfl
        | some b => exact congrArg (fun json => [("basis", json)]) (hvalue List.mem_cons_self)
      have hrules : Content.constraintField false (impliedAxis basis) (constraints.map (plain registry)) =
          Content.constraintField false (impliedAxis basis) constraints :=
        funext fun _ => constraintField_plain fun c hc => h c (List.mem_append_right basis.toList hc)
      simp only [Content.map, Content.json, himplied, hbasis, hrules]
  | required key value => simp only [Content.map, Content.json, hvalue List.mem_cons_self]
  | optional key value => simp only [Content.map, Content.json, hvalue List.mem_cons_self]
  | _ => rfl

omit captioned in
/-- The type of a written node is the one of its plain node. -/
theorem typeJson_plain {node : Node} (h : node.Everywhere (Written registry)) :
    (node.plain registry).typeJson = node.typeJson := by
  induction node using induct with
  | step content caption profile ih =>
      rw [h.self.typeJson, plain_mk]
      exact json_plain (fun c hc => ih c hc (h.child hc)) caption

omit captioned in
theorem typeId_plain {node : Node} (h : node.Everywhere (Written registry)) :
    (node.plain registry).typeId = node.typeId := by
  have hplain : (node.plain registry).typeId =
      (node.plain registry).content.identifier (node.plain registry).typeJson := by
    rw [plain_eq]
    rfl
  have hkind : (node.plain registry).content.kind = node.content.kind := kind_plain registry node
  rw [hplain, h.self.typeId, typeJson_plain h, Content.identifier, Content.identifier, hkind]

omit captioned in
theorem includesMorph_plain {node : Node} (h : node.Everywhere (Written registry)) :
    (node.plain registry).includesMorph = node.includesMorph := by
  induction node using induct with
  | step content caption profile ih =>
      have hchildren : (content.children.map (plain registry)).any includesMorph = content.children.any includesMorph := by
        rw [Bool.eq_iff_iff, List.any_map, List.any_eq_true, List.any_eq_true]
        exact exists_congr fun c => and_congr_right fun hc => by rw [Function.comp_apply, ih c hc (h.child hc)]
      rw [h.self.includesMorph, plain_mk]
      change (((content.map (plain registry)).unsigned.kind = .morph : Bool) ||
        (content.map (plain registry)).unsigned.children.any includesMorph) = _
      rw [Content.kind_unsigned, Content.kind_map, Content.children_unsigned, Content.children_map, hchildren]
      rfl

end Node

end SchemaAlgebra
