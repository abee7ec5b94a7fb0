-- SUMMARY: The nodes that are listed for a node are exactly those that are found in it, each of them once.
import SchemaAlgebra.Proofs.Reachable
import SchemaAlgebra.Stock

/-!
# Descendants

The list of what is found in a node is put together from the lists of its children, and
what occurs in several of these is listed where it occurs first. Nodes are told apart by
their identifiers only. Within a space no two nodes share one, so that nothing is lost;
and as no node is found in itself, none of its descendants is mistaken for it.
-/

namespace SchemaAlgebra

namespace Node

variable {node child found : Node}

-- ---------------------------------------------------------------------------
-- Nodes of different identifiers
-- ---------------------------------------------------------------------------

/-- One step of leaving out the nodes whose identifier occurred before. -/
def visit (seen : List String × List Node) (node : Node) : List String × List Node :=
  if seen.1.contains node.id then seen else (node.id :: seen.1, node :: seen.2)

/-- What is known after the visit to some nodes: their identifiers, and a first node for each, the last one first. -/
structure Visited (nodes : List Node) (seen : List String × List Node) : Prop where
  ids : seen.1 = seen.2.map Node.id
  sublist : seen.2.reverse.Sublist nodes
  distinct : (seen.2.map Node.id).Nodup
  covers : ∀ n ∈ nodes, n.id ∈ seen.2.map Node.id

theorem Visited.step {nodes : List Node} {seen : List String × List Node} (h : Visited nodes seen) (node : Node) :
    Visited (nodes ++ [node]) (visit seen node) := by
  unfold visit
  split
  · rename_i hseen
    refine ⟨h.ids, h.sublist.trans (List.sublist_append_left _ _), h.distinct, List.forall_mem_append.mpr ⟨h.covers, ?_⟩⟩
    rw [List.contains_iff_mem, h.ids] at hseen
    exact List.forall_mem_singleton.mpr hseen
  · rename_i hnew
    rw [List.contains_iff_mem, h.ids] at hnew
    refine ⟨congrArg (node.id :: ·) h.ids, ?_, List.nodup_cons.mpr ⟨hnew, h.distinct⟩, List.forall_mem_append.mpr ⟨?_, ?_⟩⟩
    · rw [List.reverse_cons]
      exact h.sublist.append (.refl _)
    · exact fun n hn => List.mem_cons_of_mem _ (h.covers n hn)
    · exact List.forall_mem_singleton.mpr List.mem_cons_self

theorem visited_foldl {nodes rest : List Node} {seen : List String × List Node} (h : Visited nodes seen) :
    Visited (nodes ++ rest) (rest.foldl visit seen) := by
  induction rest generalizing nodes seen with
  | nil =>
      rw [List.append_nil]
      exact h
  | cons node rest ih =>
      rw [List.foldl_cons, List.append_cons]
      exact ih (h.step node)

theorem visited_distinctById (nodes : List Node) :
    ∃ seen, Visited nodes seen ∧ distinctById nodes = seen.2.reverse :=
  ⟨_, @visited_foldl [] nodes ([], []) ⟨rfl, .refl _, .nil, List.forall_mem_nil _⟩, rfl⟩

theorem distinctById_sublist (nodes : List Node) : (distinctById nodes).Sublist nodes := by
  obtain ⟨seen, h, heq⟩ := visited_distinctById nodes
  rw [heq]
  exact h.sublist

theorem distinctById_nodup (nodes : List Node) : ((distinctById nodes).map Node.id).Nodup := by
  obtain ⟨seen, h, heq⟩ := visited_distinctById nodes
  rw [heq, List.map_reverse, List.nodup_reverse]
  exact h.distinct

theorem distinctById_covers {nodes : List Node} (h : node ∈ nodes) : ∃ n ∈ distinctById nodes, n.id = node.id := by
  obtain ⟨seen, hvisited, heq⟩ := visited_distinctById nodes
  obtain ⟨n, hn, hid⟩ := List.mem_map.mp (hvisited.covers node h)
  rw [heq]
  exact ⟨n, List.mem_reverse.mpr hn, hid⟩

-- ---------------------------------------------------------------------------
-- What is found in a node
-- ---------------------------------------------------------------------------

theorem Reaches.trans {other : Node} (h : node.Reaches found) (h' : found.Reaches other) : node.Reaches other := by
  induction h with
  | refl => exact h'
  | child hchild _ ih => exact .child hchild (ih h')

/-- No node is found in its own children. -/
theorem not_reaches_of_child (hchild : child ∈ node.children) : ¬ child.Reaches node := by
  induction node using induct generalizing child with
  | step content caption profile ih =>
      intro hreaches
      -- The child would be found in a child of its own, by way of the node.
      have hself : ∀ c ∈ child.children, ¬ c.Reaches child := fun c hc => ih child hchild hc
      cases hreaches with
      | refl => exact hself _ hchild (.refl _)
      | child hc hreaches => exact hself _ hc (hreaches.trans (.child hchild (.refl _)))

theorem listReferences_eq (nodes : List Node) : listReferences nodes = nodes.flatMap references := by
  induction nodes with
  | nil => rfl
  | cons node rest ih => rw [listReferences, ih, List.flatMap_cons]

theorem optionReferences_eq (node : Option Node) : optionReferences node = node.toList.flatMap references := by
  cases node with
  | none => rfl
  | some node => simp [optionReferences]

/-- The lists of the children, one after the other. -/
theorem contentReferences_eq (content : Content Node) :
    contentReferences content = content.children.flatMap references := by
  cases content <;>
    simp [contentReferences, Content.children, listReferences_eq, optionReferences_eq]

theorem references_eq (node : Node) : node.references = node :: distinctById (node.children.flatMap references) := by
  cases node with
  | mk content caption profile => rw [references, contentReferences_eq]; rfl

theorem reaches_of_mem_references (h : found ∈ node.references) : node.Reaches found := by
  induction node using induct with
  | step content caption profile ih =>
      rw [references_eq] at h
      rcases List.mem_cons.mp h with rfl | h
      · exact .refl _
      · obtain ⟨c, hc, hfound⟩ := List.mem_flatMap.mp ((distinctById_sublist _).subset h)
        exact .child hc (ih c hc hfound)

/-- Whatever is found in a node is listed by its identifier. -/
theorem references_covers (h : node.Reaches found) : ∃ n ∈ node.references, n.id = found.id := by
  induction h with
  | refl node =>
      rw [references_eq]
      exact ⟨node, List.mem_cons_self, rfl⟩
  | child hchild _ ih =>
      obtain ⟨n, hn, hid⟩ := ih
      obtain ⟨m, hm, hid'⟩ := distinctById_covers (List.mem_flatMap.mpr ⟨_, hchild, hn⟩)
      rw [references_eq]
      exact ⟨m, List.mem_cons_of_mem _ hm, hid'.trans hid⟩

-- ---------------------------------------------------------------------------
-- References within a space
-- ---------------------------------------------------------------------------

variable {space : Space}

theorem mem_references_iff (hvalid : space.Valid) (hnode : space.Holds node) :
    found ∈ node.references ↔ node.Reaches found := by
  refine ⟨reaches_of_mem_references, fun h => ?_⟩
  obtain ⟨n, hn, hid⟩ := references_covers h
  have hlisted := hvalid.reaches (reaches_of_mem_references hn) hnode
  rwa [← hvalid.eq_of_id hlisted (hvalid.reaches h hnode) hid]

theorem references_nodup (hvalid : space.Valid) (hnode : space.Holds node) : (node.references.map Node.id).Nodup := by
  rw [references_eq, List.map_cons]
  refine List.nodup_cons.mpr ⟨fun hmem => ?_, distinctById_nodup _⟩
  obtain ⟨n, hn, hid⟩ := List.mem_map.mp hmem
  obtain ⟨c, hc, hlisted⟩ := List.mem_flatMap.mp ((distinctById_sublist _).subset hn)
  have hreaches := reaches_of_mem_references hlisted
  rw [hvalid.eq_of_id (hvalid.reaches (.child hc hreaches) hnode) hnode hid] at hreaches
  exact not_reaches_of_child hc hreaches

variable [Behaviour]

/-- The references of a node start with the node itself, are exactly what is found in it, list nothing twice, and list the
children of whatever they list. -/
theorem references_exact {adopting : Prop} (hreachable : space.Reachable adopting) (hnode : space.Holds node) :
    node.references.head? = some node ∧ (∀ n, n ∈ node.references ↔ node.Reaches n) ∧
      (node.references.map Node.id).Nodup ∧ ∀ n ∈ node.references, ∀ c ∈ n.children, c ∈ node.references := by
  have hvalid := hreachable.valid
  refine ⟨?_, fun n => mem_references_iff hvalid hnode, references_nodup hvalid hnode, fun n hn c hc => ?_⟩
  · rw [references_eq]
    rfl
  · have hreaches := (mem_references_iff hvalid hnode).mp hn
    exact (mem_references_iff hvalid hnode).mpr (hreaches.trans (.child hc (.refl c)))

omit [Behaviour] in
/-- The basis of an object type that is also the value of a property is listed once. -/
theorem shared_basis_listed_once : ∃ (space : Space) (node : Node), @Space.Reachable Stock.behaviour True space ∧
    space.Holds node ∧ node.references.map Node.kind = [.intersection, .domain, .required] ∧
      (∀ n, n ∈ node.references ↔ node.Reaches n) ∧ (node.references.map Node.id).Nodup := by
  let _ := Stock.behaviour
  let written : Definition :=
    .map [("domain", .string "object"), ("required", .map [("key", .string "a"), ("value", .string "object")])]
  have hyields : written.readRoot.yields (.new 0 .standard)
      (fun node => node.references.map Node.kind = [.intersection, .domain, .required]) = true := by
    decide +kernel
  obtain ⟨node, hread, hkinds⟩ := SpaceM.yields_iff.mp hyields
  obtain ⟨hreachable, -, hholds⟩ := (@Space.Reachable.new _ True 0 .standard).read (d := written) (List.forall_mem_nil _)
  have hnode := hholds node hread
  obtain ⟨-, hexact, hnodup, -⟩ := references_exact hreachable hnode
  exact ⟨_, node, hreachable, hnode, of_decide_eq_true hkinds, hexact, hnodup⟩

end Node

end SchemaAlgebra
