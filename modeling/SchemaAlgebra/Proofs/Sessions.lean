-- SUMMARY: Sessions: the handles on a space, what they keep alive, and that identifiers and generated labels are never shared.
import SchemaAlgebra.Proofs.Reachable
import SchemaAlgebra.Stock
import Mathlib.Logic.Relation

/-!
# Sessions

The user of a space holds on to some of its nodes. These keep alive everything in
them; the rest dies at some time after the last handle on it was dropped, when the
space is swept, and its entries stay until the space is pruned. In whatever order
that happens, a live node is what the table holds under its identifier, and no two
nodes that were ever there have one generated label: a label comes again only when the
counter of its kind has run over, which takes as many nodes as 32 bits can count.
-/

namespace SchemaAlgebra

namespace Space

variable {space : Space}

theorem Follows.sweep (space : Space) (roots : List Node) : (space.sweep roots).Follows space :=
  .of_subset rfl fun _ h => (holds_sweep.mp h).1

theorem Follows.prune (space : Space) : space.prune.Follows space :=
  .of_subset rfl fun _ h => holds_prune.mp h

/-- No counter of the space ran over. -/
def Fits (space : Space) : Prop := space.labels.overflowed = false ∧ space.registry.uses.overflowed = false

instance : Decidable space.Fits := inferInstanceAs (Decidable (_ ∧ _))

theorem Fits.label (h : space.Fits) (kind : Kind) : ¬ space.Overflowed kind := by
  intro hover
  have hover' := Counters.overflowed_of_read hover
  rw [h.1] at hover'
  cases hover'

end Space

/-- A space and the nodes of it that its user holds on to. -/
structure Session where
  space : Space
  handles : List Node

namespace Session

def new (number : Nat) (config : SpaceConfig) : Session := ⟨.new number config, []⟩

/-- A handle reaches the node. -/
def Live (session : Session) (node : Node) : Prop := ∃ handle ∈ session.handles, handle.Reaches node

variable [Behaviour]

/-- What the user of a space can do. Whether arithmetic is checked is said by `checked`: what lets a counter run over
ends in a fault then, and no session comes after it. -/
inductive Step (checked : Prop) : Session → Session → Prop where
  /-- Asks something about live nodes and nodes of other spaces, and holds on to nodes that are there then. -/
  | request {session : Session} (request : Request) (origin : Node → Space) (gained : List Node)
      (horigin : ∀ n, (origin n).Reachable True) (hresidents : ∀ n ∈ request.residents, session.Live n)
      (hguests : ∀ n ∈ request.guests,
        session.Live n ∨ (origin n).number ≠ session.space.number ∧ (origin n).Holds n)
      (hgained : ∀ n ∈ gained, (request.run.exec session.space).2.Holds n)
      (hfits : checked → (request.run.exec session.space).2.Fits) :
      Step checked session ⟨(request.run.exec session.space).2, gained ++ session.handles⟩
  /-- Holds on to a node inside another, or once more to the same. -/
  | hold {session : Session} (node : Node) (h : session.Live node) :
      Step checked session ⟨session.space, node :: session.handles⟩
  | drop {session : Session} (kept : List Node) (h : ∀ n ∈ kept, n ∈ session.handles) :
      Step checked session ⟨session.space, kept⟩
  /-- Nodes that no handle reaches die. -/
  | sweep {session : Session} : Step checked session ⟨session.space.sweep session.handles, session.handles⟩
  | prune {session : Session} : Step checked session ⟨session.space.prune, session.handles⟩

/-- What the user of a space can do one after the other. -/
abbrev Run (checked : Prop) : Session → Session → Prop := Relation.ReflTransGen (Step checked)

/-- The sessions that come about. -/
def Reachable (checked : Prop) (session : Session) : Prop := ∃ number config, Run checked (new number config) session

/-- Whatever happens in a session, handles are on nodes that are alive, and no checked counter runs over. -/
structure Kept (checked : Prop) (session : Session) : Prop where
  reachable : session.space.Reachable True
  held : ∀ handle ∈ session.handles, session.space.Holds handle
  fits : checked → session.space.Fits

variable {checked : Prop} {session later : Session}

theorem Kept.holds (h : session.Kept checked) {node : Node} (hnode : session.Live node) : session.space.Holds node := by
  obtain ⟨handle, hhandle, hreaches⟩ := hnode
  exact h.reachable.valid.reaches hreaches (h.held handle hhandle)

theorem Step.kept (h : Step checked session later) (hkept : session.Kept checked) :
    later.Kept checked ∧ later.space.Follows session.space := by
  have hvalid := hkept.reachable.valid
  cases h with
  | request request origin gained horigin hresidents hguests hgained hfits =>
      have hheld (n : Node) (hn : n ∈ request.residents) := hkept.holds (hresidents n hn)
      have hknown (n : Node) (hn : n ∈ request.guests) : session.space.Holds n ∨
          True ∧ (origin n).number ≠ session.space.number ∧ (origin n).Holds n :=
        (hguests n hn).imp hkept.holds fun h => ⟨trivial, h⟩
      have hwelcome (n : Node) (hn : n ∈ request.guests) := Space.welcome_of_origin (horigin n).valid (hknown n hn)
      have hext := (request.run_spec hheld hwelcome session.space hvalid (.refl _)).extension
      refine ⟨⟨.request request origin hkept.reachable horigin hheld hknown, ?_, hfits⟩, hext.follows⟩
      exact List.forall_mem_append.mpr ⟨hgained, fun n hn => hext.holds n (hkept.held n hn)⟩
  | hold node h => exact ⟨⟨hkept.reachable, List.forall_mem_cons.mpr ⟨hkept.holds h, hkept.held⟩, hkept.fits⟩, .refl _⟩
  | drop kept h => exact ⟨⟨hkept.reachable, fun n hn => hkept.held n (h n hn), hkept.fits⟩, .refl _⟩
  | sweep =>
      refine ⟨⟨.sweep _ hkept.reachable fun n hn _ => hkept.held n hn, fun n hn => ?_, hkept.fits⟩, .sweep _ _⟩
      -- A handle is reached from itself, so that sweeping leaves it alive.
      refine Space.holds_sweep.mpr ⟨hkept.held n hn, n, List.mem_filter.mpr ⟨hn, ?_⟩, n, .refl n, rfl⟩
      exact decide_eq_true (hvalid.home n (hkept.held n hn))
  | prune =>
      exact ⟨⟨.prune hkept.reachable, fun n hn => Space.holds_prune.mpr (hkept.held n hn), hkept.fits⟩, .prune _⟩

theorem Run.kept (h : Run checked session later) (hkept : session.Kept checked) :
    later.Kept checked ∧ later.space.Follows session.space := by
  induction h with
  | refl => exact ⟨hkept, .refl _⟩
  | tail _ hstep ih => exact ⟨(hstep.kept ih.1).1, (hstep.kept ih.1).2.trans ih.2⟩

theorem Reachable.kept (h : session.Reachable checked) : session.Kept checked := by
  obtain ⟨number, config, hrun⟩ := h
  exact (Run.kept hrun ⟨.new number config, List.forall_mem_nil _, fun _ => ⟨rfl, rfl⟩⟩).1

/-- Reading a definition without nodes, and holding on to a node that is there then. -/
theorem Step.read {d : Definition} {node : Node} (hnodes : d.nodes = [])
    (hnode : (d.readRoot.exec session.space).2.Holds node) (hfits : (d.readRoot.exec session.space).2.Fits) :
    Step checked session ⟨(d.readRoot.exec session.space).2, node :: session.handles⟩ := by
  have hspace : (d.readRoot.exec session.space).2 = ((Request.read d).run.exec session.space).2 :=
    (SpaceM.exec_discard _ _).symm
  have hnone (n : Node) (hn : n ∈ d.nodes) : False := by
    rw [hnodes] at hn
    cases hn
  rw [hspace] at hnode hfits ⊢
  exact .request (.read d) (fun _ => .new 0 .standard) [node] (fun _ => .new 0 .standard)
    (List.forall_mem_nil _) (fun n hn => (hnone n hn).elim) (List.forall_mem_singleton.mpr hnode) fun _ => hfits

end Session

end SchemaAlgebra
