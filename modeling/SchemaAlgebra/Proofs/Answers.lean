-- SUMMARY: What requests are answered, and that answers are put together from simple steps.
import SchemaAlgebra.Proofs.Composition
import SchemaAlgebra.Proofs.Reachable
import SchemaAlgebra.Validation.Traversal

/-!
# Answers

A request is known by what it does to the space, and answered with what its user gets
to see. All of it but registering is put together from simple steps, so that it has
every property that these have.
-/

namespace SchemaAlgebra

/-- What can be learnt from a space. -/
inductive Answer where
  | node (node : Node)
  | outcome (out : Intersected)
  | truth (holds : Bool)
  | name (reference : Option String)
  | thing (found : Option Registered)
  | count (n : Nat)
  /-- What a validation gives, and the next serial number that is free. -/
  | validation (result : Except Problems Value) (nextSerial : Nat)
  | failure (error : SchemaError)

/-- What can be asked about a space and its nodes. -/
inductive Question where
  | request (request : Request)
  /-- Whether two outcomes are the same, seen from the space of the first. -/
  | agree (a b : Intersected)
  /-- How many nodes are alive. -/
  | live
  /-- What a reference stands for. -/
  | resolve (reference : String)
  /-- The name that a thing has. -/
  | nameOf (thing : Registered)
  | allows (node : Node) (v : Value)
  | apply (node : Node) (v : Value) (serial : Nat)

variable [Behaviour]

/-- What a request is answered. -/
def Request.reply : Request → SpaceM Answer
  | .read d => do return .node (← d.readRoot)
  | .readKind kind d => do return .node (← Definition.readKind kind d)
  | .unknown => do return .node (← SpaceM.unknown)
  | .never => do return .node (← SpaceM.never)
  | .union nodes => do return .node (← Node.union nodes)
  | .adopt node => do return .node (← Node.adopt node)
  | .intersect l r => do return .outcome (← Node.intersect l r)
  | .and l r => do return .node (← Node.and l r)
  | .comparison l r => do return .truth (← Node.extends? l r)
  | .equality l r => do return .truth (← Node.equals l r)
  | .constrain node kind d => do return .node (← Node.constrain node kind d)
  | .describe node description => do return .node (← Node.withDescription node description)
  | .project side node => do return .node (← Node.project side node)
  | .register thing => modifyGet fun space =>
      let (name, registry) := space.registry.register thing
      (.name name, { space with registry })

def Question.reply : Question → SpaceM Answer
  | .request asked => asked.reply
  | .agree a b => do return .truth (← a.equals b)
  | .live => do return .count (← get).liveCount
  | .resolve reference => do return .thing ((← get).registry.resolve? reference)
  | .nameOf thing => do return .name ((← get).registry.nameOf? thing)
  | .allows node v => return .truth (node.allows v)
  | .apply node v serial => return .validation (node.apply v serial).1 (node.apply v serial).2

namespace Request

open SpaceM (Compositional)

/-- Answering does to a space what the request does. -/
theorem exec_reply (request : Request) (space : Space) :
    (request.reply.exec space).2 = (request.run.exec space).2 := by
  have hnode {α : Type} (x : SpaceM α) (answer : α → Answer) :
      ((do return answer (← x) : SpaceM Answer).exec space).2 = ((do let _ ← x : SpaceM Unit).exec space).2 := by
    rw [SpaceM.exec_bind, SpaceM.exec_bind]
    rcases x.exec space with ⟨_ | _, _⟩ <;> rfl
  cases request with
  | register thing => rfl
  | _ => exact hnode _ _

/-- Whatever simple steps have in common is common to all answers, if it is to refusals for a conflict and to registering. -/
theorem reply_inherits {P : {α : Type} → SpaceM α → Prop} (hP : Compositional P)
    (hrefuse : ∀ d, P (MonadExcept.throw (.unsatisfiable d) : SpaceM Node))
    (hregister : ∀ thing, P (reply (.register thing))) (request : Request) : P request.reply := by
  have hdone {α : Type} {x : SpaceM α} (hx : P x) (answer : α → Answer) :
      P (do return answer (← x) : SpaceM Answer) := hP.bind hx fun _ => hP.pure _
  cases request with
  | read d => exact hdone (Definition.readRoot_inherits hP d) _
  | readKind kind d => exact hdone (Definition.readKind_inherits hP kind d) _
  | unknown => exact hdone (hP.intern _ _ (.inl trivial)) _
  | never => exact hdone (hP.intern _ _ (.inl trivial)) _
  | union nodes => exact hdone (Node.union_inherits hP nodes (.inl trivial)) _
  | adopt node => exact hdone (Node.adopt_inherits hP node (.inl trivial)) _
  | intersect l r => exact hdone (Node.intersect_inherits hP l r (.inl trivial)) _
  | and l r => exact hdone (Node.and_inherits hP hrefuse l r (.inl trivial)) _
  | comparison l r => exact hdone (Node.extends?_inherits hP l r (.inl trivial)) _
  | equality l r => exact hdone (Node.equals_inherits hP l r (.inl trivial)) _
  | constrain node kind d => exact hdone (Node.constrain_inherits hP hrefuse node kind d) _
  | describe node description => exact hdone (Node.withDescription_inherits hP node description (.inl trivial)) _
  | project side node => exact hdone (Node.project_inherits hP hrefuse side node) _
  | register thing => exact hregister thing

end Request

end SchemaAlgebra
