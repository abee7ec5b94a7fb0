-- SUMMARY: Induction on nodes, and plain nodes: what is left of a node without captions and derived data.
import SchemaAlgebra.Algebra.Conjunction
import SchemaAlgebra.Proofs.LiteralText

/-!
# Plain nodes

Apart from captions, labels and zeros of either sign, everything about a node
follows from its content and the names in a registry. The plain node of a node is
made from just these, so two nodes mean the same if their plain nodes are equal.
-/

namespace SchemaAlgebra

-- ---------------------------------------------------------------------------
-- Contents
-- ---------------------------------------------------------------------------

/-- The bound with a limit of zero made positive. -/
def Bound.unsigned (bound : Bound) : Bound := { bound with limit := bound.limit.unsigned }

namespace Content

variable {ν μ : Type}

/-- The content with a function applied to its nodes. -/
def map (f : ν → μ) : Content ν → Content μ
  | .union branches ordered => .union (branches.map f) ordered
  | .morph input output transforms => .morph (f input) (output.map f) transforms
  | .intersection basis constraints => .intersection (basis.map f) (constraints.map f)
  | .unit v => .unit v
  | .proto p => .proto p
  | .domain d => .domain d
  | .divisor d => .divisor d
  | .max bound => .max bound
  | .min bound => .min bound
  | .pattern p => .pattern p
  | .predicate p => .predicate p
  | .required key value => .required key (f value)
  | .optional key value => .optional key (f value)

/-- The content with its own zeros made positive. -/
def unsigned : Content ν → Content ν
  | .unit v => .unit v.unsigned
  | .max bound => .max bound.unsigned
  | .min bound => .min bound.unsigned
  | content => content

@[simp] theorem map_self (content : Content ν) : content.map (fun n => n) = content := by
  cases content <;> simp [map]

@[simp] theorem kind_map (f : ν → μ) (content : Content ν) : (content.map f).kind = content.kind := by
  cases content <;> rfl

@[simp] theorem kind_unsigned (content : Content ν) : content.unsigned.kind = content.kind := by
  cases content <;> rfl

@[simp] theorem children_map (f : ν → μ) (content : Content ν) :
    (content.map f).children = content.children.map f := by
  cases content with
  | morph input output transforms => cases output <;> rfl
  | intersection basis constraints => cases basis <;> simp [map, children]
  | _ => rfl

@[simp] theorem children_unsigned (content : Content ν) : content.unsigned.children = content.children := by
  cases content <;> rfl

end Content

-- ---------------------------------------------------------------------------
-- Induction
-- ---------------------------------------------------------------------------

namespace Node

/-- A property that nodes inherit from their children. -/
def Inherited (P : Node → Prop) : Prop :=
  ∀ content caption profile, (∀ c ∈ content.children, P c) → P (.mk content caption profile)

mutual

private theorem inductNode {P : Node → Prop} (h : Inherited P) : (node : Node) → P node
  | .mk content caption profile => h content caption profile (inductContent h content)
termination_by structural node => node

private theorem inductContent {P : Node → Prop} (h : Inherited P) :
    (content : Content Node) → ∀ c ∈ content.children, P c
  | .union branches _ => inductList h branches
  | .morph input output _ => fun c hc => by
    rcases List.mem_cons.mp hc with hc | hc
    · rw [hc]; exact inductNode h input
    · exact inductOption h output c hc
  | .intersection basis constraints => fun c hc => by
    rcases List.mem_append.mp hc with hc | hc
    · exact inductOption h basis c hc
    · exact inductList h constraints c hc
  | .required _ value => fun c hc => by
    rw [List.mem_singleton.mp hc]
    exact inductNode h value
  | .optional _ value => fun c hc => by
    rw [List.mem_singleton.mp hc]
    exact inductNode h value
  | .unit _ | .proto _ | .domain _ | .divisor _ | .max _ | .min _ | .pattern _ | .predicate _ => nofun
termination_by structural content => content

private theorem inductList {P : Node → Prop} (h : Inherited P) : (nodes : List Node) → ∀ c ∈ nodes, P c
  | [] => nofun
  | node :: rest => fun c hc => by
    rcases List.mem_cons.mp hc with hc | hc
    · rw [hc]; exact inductNode h node
    · exact inductList h rest c hc
termination_by structural nodes => nodes

private theorem inductOption {P : Node → Prop} (h : Inherited P) : (node : Option Node) → ∀ c ∈ node.toList, P c
  | none => nofun
  | some node => fun c hc => by
    rw [List.mem_singleton.mp hc]
    exact inductNode h node
termination_by structural node => node

end

/-- What a node inherits from its children holds of all nodes. -/
theorem induct {P : Node → Prop}
    (step : ∀ content caption profile, (∀ c ∈ content.children, P c) → P (.mk content caption profile))
    (node : Node) : P node :=
  inductNode step node

end Node

-- ---------------------------------------------------------------------------
-- Plain nodes
-- ---------------------------------------------------------------------------

/-- The node that a content makes by itself: without caption, discriminant, or place in a space. -/
def Registry.form (registry : Registry) (content : Content Node) : Node :=
  let json := content.json registry false .none
  .mk content .none {
    id := content.identifier json
    typeId := content.identifier json
    json, typeJson := json
    description := content.description
    label := "", condition := ""
    includesMorph := content.kind = .morph || content.children.any Node.includesMorph
    discriminant := none
    space := 0, serial := 0 }

namespace Node

mutual

/-- The node formed anew from its content, with the names of a registry. -/
def plain (registry : Registry) : Node → Node
  | .mk content _ _ => registry.form (plainContent registry content)
termination_by structural node => node

def plainContent (registry : Registry) : Content Node → Content Node
  | .union branches ordered => .union (plainList registry branches) ordered
  | .morph input output transforms => .morph (plain registry input) (plainOption registry output) transforms
  | .intersection basis constraints => .intersection (plainOption registry basis) (plainList registry constraints)
  | .required key value => .required key (plain registry value)
  | .optional key value => .optional key (plain registry value)
  | .unit v => .unit v.unsigned
  | .proto p => .proto p
  | .domain d => .domain d
  | .divisor d => .divisor d
  | .max bound => .max bound.unsigned
  | .min bound => .min bound.unsigned
  | .pattern p => .pattern p
  | .predicate p => .predicate p
termination_by structural content => content

def plainList (registry : Registry) : List Node → List Node
  | [] => []
  | node :: rest => plain registry node :: plainList registry rest
termination_by structural nodes => nodes

def plainOption (registry : Registry) : Option Node → Option Node
  | none => none
  | some node => some (plain registry node)
termination_by structural node => node

end

variable (registry : Registry)

@[simp] theorem plainList_eq (nodes : List Node) : plainList registry nodes = nodes.map (plain registry) := by
  induction nodes with
  | nil => rfl
  | cons node rest ih => rw [plainList, List.map_cons, ih]

@[simp] theorem plainOption_eq (node : Option Node) : plainOption registry node = node.map (plain registry) := by
  cases node <;> rfl

@[simp] theorem plainContent_eq (content : Content Node) :
    plainContent registry content = (content.map (plain registry)).unsigned := by
  cases content <;> simp [plainContent, Content.map, Content.unsigned]

theorem plain_mk (content : Content Node) (caption : Caption) (profile : Profile) :
    (Node.mk content caption profile).plain registry = registry.form (content.map (plain registry)).unsigned := by
  rw [plain, plainContent_eq]

theorem plain_eq (node : Node) :
    node.plain registry = registry.form (node.content.map (plain registry)).unsigned := by
  cases node with
  | mk content caption profile => rw [plain_mk]; rfl

@[simp] theorem content_form (content : Content Node) : (registry.form content).content = content := rfl

@[simp] theorem content_plain (node : Node) :
    (node.plain registry).content = (node.content.map (plain registry)).unsigned := by
  rw [plain_eq]; rfl

@[simp] theorem kind_form (content : Content Node) : (registry.form content).kind = content.kind := rfl

@[simp] theorem kind_plain (node : Node) : (node.plain registry).kind = node.kind := by
  rw [kind, content_plain]; simp [kind]

@[simp] theorem children_plain (node : Node) :
    (node.plain registry).children = node.children.map (plain registry) := by
  rw [children, content_plain]; simp [children]

end Node

end SchemaAlgebra
