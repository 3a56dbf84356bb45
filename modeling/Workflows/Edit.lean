import Workflows.Edit.Carry
import Workflows.Validation

/-!
# Edit — batches of operations

A batch is carried out as a whole or not at all: its operations run in order on a draft, and the
first one that is refused rejects the batch. All malformed operations of a batch are reported
before anything is carried out.

Main definitions:

* `EditError`, `EditResult` — what comes of a batch;
* `Operation.parseAll` — operations from values;
* `Editor`, `Editor.applyWith`, `Editor.apply` — carrying out a batch on a document;
* `Validator.edit` — carrying out a batch on a value, with a report on the outcome.
-/

namespace Workflows

structure EditError where
  /-- The place of the operation in the batch; -1 stands for the document. -/
  operation : Int
  kind : Option String := none
  message : String
  /-- The faults of a malformed operation. -/
  faults : Option (List ShapeIssue) := none
  deriving DecidableEq, Repr

structure EditResult where
  success : Bool
  dryRun : Bool := false
  /-- The new document, or after a rejection the old one. A dry run that succeeds gives none. -/
  document : Option Document := none
  errors : List EditError := []
  applied : Nat := 0
  message : String := ""
  report : Option Report := none
  deriving Repr

/-! ## Reading operations -/

namespace Operation

/-- The error for a value that is no operation. -/
def malformed (index : Nat) (es : Entries Value) (first : Fault) (more : List Fault) :
    EditError :=
  { operation := index
    kind := (es.get? "type").bind Value.str?
    message := "Invalid operation: " ++ first.text
    faults := some ((first :: more).map Fault.shapeIssue) }

def parse (index : Nat) : Value → Except EditError Operation
  | .obj es =>
    match ofEntries es with
    | .ok o => .ok o
    | .faulty e more => .error (malformed index es e more)
  | v =>
    .error
      { operation := index
        message := "Invalid operation: expected an object, got " ++ v.kind }

/-- The operations among some values, and the errors for the others, from an index on. -/
def parseFrom : Nat → List Value → List Operation × List EditError
  | _, [] => ([], [])
  | index, v :: rest =>
    -- All operations are read before any is carried out, so every malformed one is reported.
    let (os, es) := parseFrom (index + 1) rest
    match parse index v with
    | .ok o => (o :: os, es)
    | .error e => (os, e :: es)

def parseAll (vs : List Value) : List Operation × List EditError :=
  parseFrom 0 vs

end Operation

/-! ## Carrying out batches -/

/-- Where a batch came to a halt. -/
structure Halt where
  index : Nat
  kind : String
  obstacle : Obstacle
  nextId : Nat
  deriving Repr

/-- Carries out operations one after the other, the first of which has an index. -/
def Draft.carryOutAll (catalog : Option Catalog) : Nat → List Operation → Draft → Except Halt Draft
  | _, [], s => .ok s
  | index, o :: rest, s =>
    match s.carryOut catalog o.action with
    | .ok s => Draft.carryOutAll catalog (index + 1) rest s
    | .error obstacle => .error ⟨index, o.action.word, obstacle, s.nextId⟩

namespace EditResult

def rejected (dryRun : Bool) (d : Document) (errors : List EditError) : EditResult :=
  { success := false
    dryRun := dryRun
    document := some d
    errors := errors
    message := "Batch rejected; no changes applied (" ++ toString errors.length ++ " error(s))" }

def checked (count : Nat) : EditResult :=
  { success := true
    dryRun := true
    message := "Validation successful: " ++ toString count ++ " operation(s) can be applied" }

def done (count : Nat) (d : Document) : EditResult :=
  { success := true
    document := some d
    applied := count
    message := "Applied " ++ toString count ++ " operation(s)" }

/-- The result for a value that is no document. -/
def noDocument (dryRun : Bool) (issues : List ShapeIssue) : EditResult :=
  { success := false
    dryRun := dryRun
    errors := issues.map fun i =>
      { operation := -1, message := "Invalid workflow document: " ++ i.text }
    message := "Workflow document could not be parsed" }

end EditResult

structure Editor where
  /-- The catalog by which the outputs of nodes are checked, if they are. -/
  catalog : Option Catalog := none
  maxOperations : Option Number := none
  deriving Repr

/-- Something that a batch has made does not have the shape it needs: a node that was accepted, or
the error on a batch with too many operations. -/
structure Misshapen where
  first : Fault
  more : List Fault
  deriving Repr

namespace Editor

/-- The place that an error on too many operations names: the first one beyond the limit. There is
no such place when the limit is no whole number. -/
def placeBeyond (limit : Number) : Decoded Int :=
  (Shape.looseInteger (.num limit)).under (.key "operation")

/-- The error for a batch with too many operations, if it has too many. -/
def sizeError? (e : Editor) (count : Nat) : Option (Decoded EditError) :=
  (e.maxOperations.filter fun limit => limit.lt (.int count)).map fun limit =>
    (placeBeyond limit).map fun place =>
      { operation := place
        message := "Too many operations: " ++ toString count ++ " (maximum " ++ limit.text
          ++ ")" }

/-- Carries out well-formed operations, drawing ids from a number on. Gives the result and the
number of the next id. -/
def applyOperations (e : Editor) (ids : IdSupply) (dryRun : Bool) (nextId : Nat) (d : Document)
    (os : List Operation) : Except Misshapen (EditResult × Nat) :=
  match e.sizeError? os.length with
  | some (.ok err) => .ok (.rejected dryRun d [err], nextId)
  | some (.faulty first more) => .error ⟨first, more⟩
  | none =>
    match Draft.carryOutAll e.catalog 0 os ⟨d, nextId, ids⟩ with
    | .ok s =>
      .ok (if dryRun then .checked os.length else .done os.length s.document, s.nextId)
    | .error h =>
      -- A refusal is reported; a node that cannot be read again leaves no result to report it in.
      match h.obstacle with
      | .unreadable first more => .error ⟨first, more⟩
      | .refused r =>
        .ok
          (.rejected dryRun d
            [{ operation := h.index, kind := some h.kind, message := r.message }], h.nextId)

/-- Carries out a batch of values, drawing ids from a number on. -/
def applyWith (e : Editor) (ids : IdSupply) (dryRun : Bool) (nextId : Nat) (d : Document)
    (batch : List Value) : Except Misshapen (EditResult × Nat) :=
  match Operation.parseAll batch with
  | (os, []) => e.applyOperations ids dryRun nextId d os
  | (_, errors) => .ok (.rejected dryRun d errors, nextId)

/-- Carries out a batch of values, the ids being written numbers. -/
def apply (e : Editor) (dryRun : Bool) (nextId : Nat) (d : Document) (batch : List Value) :
    Except Misshapen (EditResult × Nat) :=
  e.applyWith idText dryRun nextId d batch

end Editor

/-! ## Editing values -/

/-- Why there is no result. -/
inductive EditFailure
  | misshapen (m : Misshapen)
  | noReport (f : ValidationFailure)
  deriving Repr

namespace Validator

def editor (v : Validator) : Editor :=
  ⟨some v.catalog, v.settings.maxOperations⟩

/-- Adds a report on the new document, under the default profile. -/
def withReport (v : Validator) (r : EditResult) : Except ValidationFailure EditResult :=
  match r.success, r.document with
  | true, some d =>
    (v.reportUnder .null d).map fun report => { r with report := some report }
  | _, _ => .ok r

def edit (v : Validator) (dryRun withReport : Bool) (nextId : Nat) (value : Value)
    (batch : List Value) : Except EditFailure EditResult :=
  match Document.decode value with
  | .faulty e more => .ok (.noDocument dryRun ((e :: more).map Fault.shapeIssue))
  | .ok d =>
    match v.editor.apply dryRun nextId d batch with
    | .error m => .error (.misshapen m)
    | .ok (r, _) =>
      if withReport then (v.withReport r).mapError .noReport else .ok r

end Validator

/-! ## Wire form -/

namespace EditError

def detailsValue (fs : List ShapeIssue) : Value :=
  .obj
    [("errors", .arr (fs.map fun f =>
      .obj [("path", .str f.path), ("message", .str f.message)]))]

def toEntries (e : EditError) : Entries Value :=
  [("operation", .int e.operation), ("type", (e.kind.map Value.str).getD .null),
    ("message", .str e.message), ("details", (e.faults.map detailsValue).getD .null)]

def toValue (e : EditError) : Value :=
  .obj e.toEntries

end EditError

namespace EditResult

/-- The wire form of a result whose errors and report are written in a given way. -/
def toEntriesWith (errorValue : EditError → Value) (reportValue : Report → Value)
    (r : EditResult) : Entries Value :=
  [("success", .bool r.success), ("dry_run", .bool r.dryRun), ("message", .str r.message),
    ("operations_applied", .int r.applied), ("errors", .arr (r.errors.map errorValue)),
    ("report", (r.report.map reportValue).getD .null),
    ("document", (r.document.map Document.toValue).getD .null)]

def toEntries : EditResult → Entries Value :=
  toEntriesWith EditError.toValue Report.toValue

/-- The wire form without the fields that are null, in errors and issues too. -/
def toBriefValue (r : EditResult) : Value :=
  .obj
    (toEntriesWith (fun e => .obj e.toEntries.withoutNulls)
      (Report.toValueWith fun i => .obj i.toEntries.withoutNulls) r).withoutNulls

end EditResult
end Workflows
