import Workflows.Edit.NodeChanges
import Workflows.Edit.Operation
import Workflows.Edit.Refusal
import Workflows.Edit.Rewiring
import Workflows.Validation.Wiring

/-!
# Carry — carrying out single operations

An operation is carried out on the document that the operations before it have left, or refused.
Node ids that an operation leaves open are drawn from a supply.

Main definitions:

* `Draft` — a document being edited, with the supply of ids;
* `Draft.carryOut` — the draft after an operation.
-/

namespace Workflows

/-- The text of a number as an id: thirty-two hexadecimal digits in five groups. -/
def idText (n : Nat) : String :=
  let digits := Text.hexDigits 32 (n % Binary64.twoTo 128)
  let group := fun (start size : Nat) => String.ofList ((digits.drop start).take size)
  Text.join "-" [group 0 8, group 8 4, group 12 4, group 16 4, group 20 12]

/-- The ids for nodes that come without one, in the order in which they are drawn. -/
abbrev IdSupply := Nat → String

/-- The document being edited, the supply of ids and the number of the next one. -/
structure Draft where
  document : Document
  nextId : Nat := 1
  ids : IdSupply := idText

/-- What keeps an operation from being carried out: a reason that is reported, or a node that was
accepted but whose written form is no node. -/
inductive Obstacle
  | refused (r : Refusal)
  | unreadable (first : Fault) (more : List Fault)
  deriving Repr

namespace Draft

abbrev Outcome := Except Refusal Document

def resolve (d : Document) (reference : String) : Except Refusal Node :=
  (d.resolve reference).mapError .noNode

/-- The document with one node replaced by what a function makes of it. -/
def changeNode (d : Document) (reference : String) (f : Node → Node) : Outcome :=
  (resolve d reference).map fun _ =>
    { d with nodes := d.nodes.map fun n => if n.answersTo reference then f n else n }

/-! ## Nodes -/

/-- Why a node cannot be added, if there is a reason. -/
def addNodeRefusal? (d : Document) (n : NewNode) : Option Refusal :=
  if (d.node? n.name).isSome then some (.nameTaken n.name)
  else if n.id.any fun id => d.nodes.any (·.id == id) then
    some (.idTaken (n.id.getD ""))
  else (TypeName.formFault? n.type).map .badType

/-- Adds a node. It gets an id and the first type version unless it has its own. -/
def addNode (s : Draft) (n : NewNode) : Except Obstacle Draft :=
  match addNodeRefusal? s.document n with
  | some r => .error (.refused r)
  | none =>
    -- The node is written down and read again, so an added node has passed the same checks as any.
    let written := (n.toEntries.putNew "id" (.str (s.ids s.nextId))).putNew "typeVersion" (.int 1)
    match Node.ofEntries written with
    | .faulty e more => .error (.unreadable e more)
    | .ok node =>
      .ok
        { s with
          document := { s.document with nodes := s.document.nodes ++ [node] }
          nextId := if n.id.isSome then s.nextId else s.nextId + 1 }

def removeNode (d : Document) (reference : String) : Outcome :=
  (resolve d reference).map fun n =>
    { d with
      nodes := d.nodes.filter fun m => !m.answersTo reference
      connections := d.connections.removeNode n.name }

/-- Why a node cannot become another one, if there is a reason. -/
def updateRefusal? (d : Document) (before after : Node) : Option Refusal :=
  if after.name ≠ before.name ∧ (d.node? after.name).isSome then
    some (.renameTaken before.name after.name)
  else if after.id ≠ before.id ∧ d.nodes.any (fun n => n.id == after.id) then
    some (.newIdTaken before.name after.id)
  -- A type that stays is not looked at again, nor are the outputs that the new type declares.
  else if after.type ≠ before.type then (TypeName.formFault? after.type).map .badType
  else none

/-- A node after one run of changes, with the changes as they have become. -/
def updated (d : Document) (n : Node) (changes : List Change) :
    Except Refusal (Node × List Change) :=
  match ChangeRun.run changes n.toEntries with
  | .error f => .error (.badPath f)
  | .ok r =>
    match Node.ofEntries r.data with
    | .faulty e _ => .error (.badUpdate n.name e)
    | .ok after =>
      match updateRefusal? d n after with
      | some r => .error r
      | none => .ok (after, r.changes)

/-- Puts a node in the place of another; its links follow it to a new name. -/
def replaceNode (d : Document) (reference : String) (before after : Node) : Document :=
  { d with
    nodes := d.nodes.map fun m => if m.answersTo reference then after else m
    connections :=
      if after.name = before.name then d.connections
      else d.connections.renameNode before.name after.name }

/-- Changes a node, on trial first and then for good. -/
def updateNode (d : Document) (reference : String) (changes : List (String × Value)) : Outcome :=
  match resolve d reference with
  | .error r => .error r
  | .ok n =>
    match updated d n (Change.ofEntries changes) with
    | .error r => .error r
    | .ok (_, changes) =>
      -- The run for good starts from the same node, with the changes that the trial has left.
      match updated d n changes with
      | .error r => .error r
      | .ok (after, _) => .ok (replaceNode d reference n after)

/-! ## Connections -/

def endpoints (d : Document) (source target : String) : Except Refusal (Node × Node) :=
  match d.resolve source with
  | .error f => .error (.noSource f)
  | .ok s =>
    match d.resolve target with
    | .error f => .error (.noTarget f)
    | .ok t => .ok (s, t)

/-- Why the output of a link does not exist, if it does not. Without a catalog every output may
exist. -/
def outputRefusal? (catalog : Option Catalog) (d : Document) (n : Node) (l : AddedLink) :
    Option Refusal :=
  match catalog with
  | none => none
  | some c =>
    let scene : Scene := ⟨d, c⟩
    if scene.hasOutput n l.output l.sourceIndex.toNat then none
    else
      some (.noOutput l.sourceIndex n.name ((scene.declaredOutputs? n).getD 0) n.type)

def addLinkRefusal? (catalog : Option Catalog) (d : Document) (source target : Node)
    (l : AddedLink) : Option Refusal :=
  if l.sourceIndex < 0 then some (.negativeSource l.sourceIndex)
  else if l.targetIndex < 0 then some (.negativeTarget l.targetIndex)
  else
    match outputRefusal? catalog d source l with
    | some r => some r
    | none =>
      let t : Target := ⟨target.name, l.input, l.targetIndex⟩
      if (d.connections.slotTargets source.name l.output l.sourceIndex.toNat).contains t then
        some (.linkExists source.name target.name)
      else none

def addConnection (catalog : Option Catalog) (d : Document) (l : AddedLink) : Outcome :=
  match endpoints d l.source l.target with
  | .error r => .error r
  | .ok (source, target) =>
    match addLinkRefusal? catalog d source target l with
    | some r => .error r
    | none =>
      .ok
        { d with
          connections :=
            d.connections.addTarget source.name l.output l.sourceIndex.toNat
              ⟨target.name, l.input, l.targetIndex⟩ }

/-- Takes away the links between two nodes on one type of output and one type of input. -/
def removeConnection (d : Document) (l : RemovedLinks) : Outcome :=
  match endpoints d l.source l.target with
  | .error r => .error r
  | .ok (source, target) =>
    let test := Connections.leadsTo target.name (some l.input)
    if (d.connections.matchingSlots source.name l.output test l.sourceIndex).isEmpty then
      .error (.noLink source.name target.name l.output)
    else
      .ok
        { d with
          connections :=
            d.connections.removeTargets source.name l.output test l.sourceIndex }

/-- A text that stands for another one when it is not empty. -/
def filledOr (o : Option String) (other : String) : String :=
  match o with
  | some s => if s = "" then other else s
  | none => other

/-- What a link in a slot becomes: the changes are filled up from the link. -/
def replacement (source target : Node) (l : ChangedLink) (slot : Nat) (existing : Target) :
    AddedLink :=
  { source := source.name
    target := target.name
    output := filledOr l.changes.output l.output
    input := filledOr l.changes.input existing.input
    sourceIndex := l.changes.sourceIndex.getD slot
    targetIndex := l.changes.targetIndex.getD existing.index }

/-- Changes a link: the links of the slot to the target give way to the changed first one. -/
def updateConnection (catalog : Option Catalog) (d : Document) (l : ChangedLink) : Outcome :=
  match endpoints d l.source l.target with
  | .error r => .error r
  | .ok (source, target) =>
    let test := Connections.leadsTo target.name none
    match d.connections.matchingSlots source.name l.output test l.sourceIndex with
    | [] => .error (.noLink source.name target.name l.output)
    | [slot] =>
      match (d.connections.slotTargets source.name l.output slot).find? test with
      | none => .error (.noLink source.name target.name l.output)
      | some existing =>
        -- The test does not look at inputs, so other links of the slot to the target go as well.
        let without :=
          { d with
            connections :=
              d.connections.removeTargets source.name l.output test l.sourceIndex }
        addConnection catalog without (replacement source target l slot existing)
    | _ => .error (.severalLinks source.name target.name)

/-! ## All operations -/

/-- The document after an operation that adds no node. -/
def carryOutOn (catalog : Option Catalog) (d : Document) : Action → Outcome
  -- An addition draws an id, which the document alone cannot give.
  | .addNode _ => .ok d
  | .removeNode r => removeNode d r.text
  | .updateNode r changes => updateNode d r.text changes
  | .moveNode r position => changeNode d r.text fun n => { n with position := position }
  | .enableNode r => changeNode d r.text fun n => { n with disabled := false }
  | .disableNode r => changeNode d r.text fun n => { n with disabled := true }
  | .addConnection l => addConnection catalog d l
  | .removeConnection l => removeConnection d l
  | .updateConnection l => updateConnection catalog d l
  | .updateSettings settings => .ok { d with settings := Entries.merge d.settings settings }
  | .updateName name => .ok { d with name := name }
  | .addTag tag =>
    .ok (if d.tags.contains tag then d else { d with tags := d.tags ++ [tag] })
  | .removeTag tag => .ok { d with tags := d.tags.erase tag }

def carryOut (catalog : Option Catalog) (s : Draft) (a : Action) : Except Obstacle Draft :=
  match a with
  | .addNode n => s.addNode n
  | a =>
    match carryOutOn catalog s.document a with
    | .error r => .error (.refused r)
    | .ok d => .ok { s with document := d }

end Draft
end Workflows
