/-
  ContextEngine.Learning.Thresholds — evaluation thresholds, read from a tracked document and
  validated a second time by their constructor (`engine/learning/thresholds.py`).

  A document is what `json.loads` returned. `datetime.fromisoformat` is a parameter: it fails,
  or returns a naive time, or one with an offset in microseconds.
-/

import ContextEngine.Python.Decoded
import ContextEngine.Python.Sorted

namespace ContextEngine.Learning

open ContextEngine.Python

namespace Thresholds

/-- What the loader raises. -/
inductive Raised where
  | valueError (message : String)
  | typeError (message : String)
  | overflowError
  deriving DecidableEq

/-! ## Values -/

structure ConfiguredCount where
  value : Int
  positive : 0 < value
  deriving DecidableEq

structure ConfiguredScore where
  value : ℚ
  fraction : 0 ≤ value ∧ value ≤ 1
  deriving DecidableEq

/-- `PendingValue | ConfiguredCount`. -/
inductive CountThreshold where
  | pending
  | configured (count : ConfiguredCount)
  deriving DecidableEq

/-- `PendingValue | ConfiguredScore`. -/
inductive ScoreThreshold where
  | pending
  | configured (score : ConfiguredScore)
  deriving DecidableEq

inductive Layer where
  | retrieval
  | citation
  | answer
  deriving DecidableEq

inductive SliceName where
  | singleDoc
  | crossDoc
  | temporal
  deriving DecidableEq

def Layer.text : Layer → String
  | .retrieval => "retrieval"
  | .citation => "citation"
  | .answer => "answer"

def SliceName.text : SliceName → String
  | .singleDoc => "single_doc"
  | .crossDoc => "cross_doc"
  | .temporal => "temporal"

structure LayerSliceThreshold where
  layer : Layer
  sliceName : SliceName
  minimumCases : CountThreshold
  minimumScore : ScoreThreshold
  deriving DecidableEq

/-- `(floor.layer, floor.slice_name)`. -/
def LayerSliceThreshold.pair (f : LayerSliceThreshold) : Layer × SliceName := (f.layer, f.sliceName)

/-- How the texts of two pairs compare. -/
def LayerSliceThreshold.rank (f : LayerSliceThreshold) : Nat :=
  3 * (match f.layer with | .answer => 0 | .citation => 1 | .retrieval => 2) +
    match f.sliceName with | .crossDoc => 0 | .singleDoc => 1 | .temporal => 2

/-- `expected_pairs`. -/
def expectedPairs : List (Layer × SliceName) :=
  [Layer.retrieval, .citation, .answer].flatMap fun l => [SliceName.singleDoc, .crossDoc, .temporal].map (l, ·)

/-- Each layer and slice exactly once. -/
def coversPairs (floors : List LayerSliceThreshold) : Bool :=
  floors.length == 9 && decide (floors.map (·.pair) ⊆ expectedPairs ∧ expectedPairs ⊆ floors.map (·.pair))

/-! ## Parsing -/

section Parsing

open Decoded (isText)

abbrev Members := Str → Decoded

def Members.get (d : Members) (key : String) : Decoded := d (Str.ofString key)

/-- `if not condition: raise ValueError(message)`. -/
def require (condition : Bool) (message : String) : Except Raised Unit :=
  if condition then .ok () else .error (.valueError message)

/-- `_object`. -/
def object (value : Decoded) (name : String) (fields : List String) : Except Raised Members :=
  match value with
  | .dict keys values =>
    if keys ⊆ fields.map Str.ofString ∧ fields.map Str.ofString ⊆ keys then .ok values
    else .error (.valueError (name ++ " is malformed"))
  | _ => .error (.valueError (name ++ " is malformed"))

/-- `document == {"status": "pending_preregistration", "value": None}`. -/
def isPending (d : Members) : Bool :=
  isText "pending_preregistration" (d.get "status") && (match d.get "value" with | .none_ => true | _ => false)

/-- `_pending_or_count`. -/
def pendingOrCount (value : Decoded) : Except Raised CountThreshold := do
  let document ← object value "count threshold" ["status", "value"]
  if isPending document then return .pending
  match isText "configured" (document.get "status"), document.get "value" with
  | true, .int n =>
    if h : 0 < n then return .configured ⟨n, h⟩
    else throw (.valueError "configured minimumCases must be positive")
  | _, _ => throw (.valueError "count threshold must be explicitly pending or configured")

/-- `ConfiguredScore("configured", value)`; a comparison with `nan` fails. -/
def configuredScore : Float64 → Except Raised ScoreThreshold
  | .finite q =>
    if h : 0 ≤ q ∧ q ≤ 1 then .ok (.configured ⟨q, h⟩)
    else .error (.valueError "configured minimumScore must be a fraction")
  | _ => .error (.valueError "configured minimumScore must be a fraction")

/-- `_pending_or_score`. -/
def pendingOrScore (value : Decoded) : Except Raised ScoreThreshold := do
  let document ← object value "score threshold" ["status", "value"]
  if isPending document then return .pending
  match isText "configured" (document.get "status"), document.get "value" with
  | true, .int n =>
    match Float64.ofInt n with
    | some q => configuredScore (.finite q)
    | none => throw .overflowError
  | true, .float x => configuredScore x
  | _, _ => throw (.valueError "score threshold must be explicitly pending or configured")

/-- `value not in {…}`: a set asks for the value's hash first. -/
def member {α : Type} (value : Decoded) (names : List (String × α)) (message : String) : Except Raised α :=
  if value.hashable = false then .error (.typeError "unhashable type")
  else
    match names.find? fun n => isText n.1 value with
    | some n => .ok n.2
    | none => .error (.valueError message)

/-- `_layer`. -/
def layerOf (value : Decoded) : Except Raised Layer :=
  member value ([Layer.retrieval, .citation, .answer].map fun l => (l.text, l)) "threshold layer is unavailable"

/-- `_slice`. -/
def sliceOf (value : Decoded) : Except Raised SliceName :=
  member value ([SliceName.singleDoc, .crossDoc, .temporal].map fun s => (s.text, s)) "threshold slice is unavailable"

/-- The body of the loop of `_parse_floors`. -/
def parseFloor (rawFloor : Decoded) : Except Raised LayerSliceThreshold := do
  let floor ← object rawFloor "slice floor" ["layer", "minimumCases", "minimumScore", "slice"]
  return {
    layer := ← layerOf (floor.get "layer")
    sliceName := ← sliceOf (floor.get "slice")
    minimumCases := ← pendingOrCount (floor.get "minimumCases")
    minimumScore := ← pendingOrScore (floor.get "minimumScore") }

/-- The floors of a list, in its order. -/
def floorsInOrder (value : Decoded) : Except Raised (List LayerSliceThreshold) :=
  match value with
  | .list _ items => (List.ofFn items).mapM parseFloor
  | _ => .error (.valueError "sliceFloors is malformed")

/-- `_parse_floors`. -/
def parseFloors (value : Decoded) : Except Raised (List LayerSliceThreshold) := do
  let floors ← floorsInOrder value
  if coversPairs floors then return sortedBy (·.rank) floors
  else throw (.valueError "sliceFloors must cover each layer and slice exactly once")

/-- `_pending_or_score` of both answer thresholds. -/
def answerValues (answer : Members) : Except Raised (ScoreThreshold × ScoreThreshold) := do
  let normalized ← pendingOrScore (answer.get "minimumNormalizedScore")
  let refusal ← pendingOrScore (answer.get "minimumRefusalAccuracy")
  return (normalized, refusal)

def ANSWER_FIELDS : List String := ["minimumNormalizedScore", "minimumRefusalAccuracy"]

/-- `_threshold_snapshot`. -/
def thresholdSnapshot (value : Decoded) (name : String) : Except Raised Unit := do
  let document ← object value name ["answer", "sliceFloors"]
  let answer ← object (document.get "answer") (name ++ " answer") ANSWER_FIELDS
  let _ ← answerValues answer
  let _ ← parseFloors (document.get "sliceFloors")

/-! ## Calibration events -/

/-- `datetime.fromisoformat`: the offset from UTC in microseconds, where there is one. -/
abbrev FromIsoformat := Str → Option (Option Int)

/-- `reason != reason.strip()`. -/
def hasMargin (s : Str) : Bool := s.head?.any Str.isspace || s.getLast?.any Str.isspace

/-- `recorded_at.replace("Z", "+00:00")`. -/
def withOffset (s : Str) : Str := s.flatMap fun c => if c = Str.ofChar 'Z' then Str.ofString "+00:00" else [c]

def hexDigest (s : Str) : Bool := s.length == 64 && s.all (· ∈ Str.ofString "0123456789abcdef")

variable (fromisoformat : FromIsoformat)

/-- `type(digest) is str`, in lowercase hexadecimal. -/
def pilotDigestOf : Decoded → Except Raised Str
  | .str s =>
    if hexDigest s then .ok s else .error (.valueError "threshold calibration event pilot digest is unavailable")
  | _ => .error (.valueError "threshold calibration event pilot digest is unavailable")

def acceptsReason : Decoded → Bool
  | .str s => !Str.blank s && !hasMargin s && decide (s.length ≤ 1024)
  | _ => false

/-- The time is written with a `Z` and is UTC. -/
def checkTime : Decoded → Except Raised Unit
  | .str s =>
    match fromisoformat (withOffset s) with
    | some offset =>
      require (s.getLast? == some (Str.ofChar 'Z') && offset == some 0) "threshold calibration event time must be aware UTC"
    | none => .error (.valueError "threshold calibration event time is unavailable")
  | _ => .error (.valueError "threshold calibration event time is unavailable")

/-- The checks of `_calibration_event` on the members that are no snapshot; the digest. -/
def lineageChecks (authority pilotDigest reason recordedAt : Decoded) : Except Raised Str := do
  require (isText "maintainer" authority) "threshold calibration event authority is unavailable"
  let digest ← pilotDigestOf pilotDigest
  require (acceptsReason reason) "threshold calibration event reason is unavailable"
  checkTime fromisoformat recordedAt
  return digest

def EVENT_FIELDS : List String := ["authority", "newValues", "oldValues", "pilotDigest", "reason", "recordedAt"]

/-- `_calibration_event` before the snapshots: the digest, the old and the new values. -/
def eventHead (value : Decoded) : Except Raised (Str × Decoded × Decoded) := do
  let document ← object value "threshold calibration event" EVENT_FIELDS
  let digest ← lineageChecks fromisoformat (document.get "authority") (document.get "pilotDigest") (document.get "reason")
    (document.get "recordedAt")
  return (digest, document.get "oldValues", document.get "newValues")

/-- A recorded event, as `_calibration_event` returns it: its document, and what is read of it later. -/
structure CalibrationEvent where
  document : Decoded
  pilotDigest : Str
  newValues : Decoded

/-- `_calibration_event`. -/
def calibrationEvent (value : Decoded) : Except Raised CalibrationEvent := do
  let (digest, oldValues, newValues) ← eventHead fromisoformat value
  thresholdSnapshot oldValues "threshold calibration old values"
  thresholdSnapshot newValues "threshold calibration new values"
  require (!oldValues.equals newValues) "threshold calibration event must record a change"
  return ⟨value, digest, newValues⟩

end Parsing

/-! ## The loader's checks -/

inductive SourceAuthority where
  | tracked
  | nonAuthoritative
  deriving DecidableEq

/-- `_LoadedThresholdConfiguration`; it allows one event. -/
structure Configuration where
  minimumAnswerScore : ScoreThreshold
  minimumRefusalAccuracy : ScoreThreshold
  sliceFloors : List LayerSliceThreshold
  recordedCalibrationEvents : List CalibrationEvent
  sourceAuthority : SourceAuthority

/-- `has_configured_value`. -/
def hasConfiguredValue (answer : ScoreThreshold × ScoreThreshold) (floors : List LayerSliceThreshold) : Bool :=
  answer.1 != .pending || answer.2 != .pending || floors.any fun f => f.minimumCases != .pending || f.minimumScore != .pending

section Loading

variable (fromisoformat : FromIsoformat)

/-- What the first checks of `load_thresholds` leave: the answer document, the raw floors and events. -/
structure Opened where
  answerDocument : Decoded
  answer : Members
  sliceFloors : Decoded
  events : List Decoded

/-- `type(maximum_events) is int and maximum_events == 1`. -/
def allowsOne : Decoded → Bool
  | .int n => n == 1
  | _ => false

/-- `recordedEvents`, at most one. -/
def recordedEvents : Decoded → Except Raised (List Decoded)
  | .list n items =>
    if n ≤ 1 then .ok (List.ofFn items) else .error (.valueError "threshold calibration event count is unavailable")
  | _ => .error (.valueError "threshold calibration event count is unavailable")

def openDocument (document : Decoded) : Except Raised Opened := do
  let document ← object document "evaluation thresholds" ["answer", "calibration", "schemaVersion", "sliceFloors"]
  require ((document.get "schemaVersion").isText "context-engine-eval-thresholds-v1")
    "evaluation thresholds version is unavailable"
  let answer ← object (document.get "answer") "answer thresholds" ANSWER_FIELDS
  let calibration ← object (document.get "calibration") "threshold calibration" ["maximumRecordedEvents", "recordedEvents"]
  require (allowsOne (calibration.get "maximumRecordedEvents")) "threshold calibration must allow exactly one event"
  let events ← recordedEvents (calibration.get "recordedEvents")
  return ⟨document.get "answer", answer, document.get "sliceFloors", events⟩

/-- `{"answer": …, "sliceFloors": …}`. -/
def activeValues (answer sliceFloors : Decoded) : Decoded :=
  .dict [Str.ofString "answer", Str.ofString "sliceFloors"] fun k => if k = Str.ofString "answer" then answer else sliceFloors

/-- The active configuration, bound by the last event where there is one. -/
def activeConfiguration (opened : Opened) (events : List CalibrationEvent) (authority : SourceAuthority) :
    Except Raised Configuration := do
  let floors ← parseFloors opened.sliceFloors
  let answer ← answerValues opened.answer
  require (!(hasConfiguredValue answer floors && events.isEmpty)) "configured thresholds require a recorded calibration event"
  require (events.getLast?.all fun event => event.newValues.equals (activeValues opened.answerDocument opened.sliceFloors))
    "threshold calibration event must bind the active configuration"
  return ⟨answer.1, answer.2, floors, events, authority⟩

/-- `load_thresholds` up to the constructor; no document stands for a text that `json.loads`
    refuses with a ValueError. (On one that nests too deep it raises RecursionError.) -/
def loadConfiguration (document : Option Decoded) (authority : SourceAuthority) : Except Raised Configuration :=
  match document with
  | none => .error (.valueError "evaluation thresholds are unavailable")
  | some document => do
    let opened ← openDocument document
    let events ← opened.events.mapM (calibrationEvent fromisoformat)
    activeConfiguration opened events authority

/-! ## The constructor -/

/-- `_threshold_value_document`. -/
def valueDocument (status : String) (value : Decoded) : Decoded :=
  .dict [Str.ofString "status", Str.ofString "value"] fun k =>
    if k = Str.ofString "status" then .str (Str.ofString status) else value

def ScoreThreshold.document : ScoreThreshold → Decoded
  | .pending => valueDocument "pending_preregistration" .none_
  | .configured s => valueDocument "configured" (.float (.finite s.value))

def CountThreshold.document : CountThreshold → Decoded
  | .pending => valueDocument "pending_preregistration" .none_
  | .configured c => valueDocument "configured" (.int c.value)

/-- A floor, rendered again. -/
def LayerSliceThreshold.document (f : LayerSliceThreshold) : Decoded :=
  .dict (["layer", "minimumCases", "minimumScore", "slice"].map Str.ofString) fun k =>
    if k = Str.ofString "layer" then .str (Str.ofString f.layer.text)
    else if k = Str.ofString "minimumCases" then f.minimumCases.document
    else if k = Str.ofString "minimumScore" then f.minimumScore.document
    else .str (Str.ofString f.sliceName.text)

def listOf (values : List Decoded) : Decoded := .list values.length values.get

/-- The active values, rendered again. -/
def Configuration.activeValues (c : Configuration) : Decoded :=
  Thresholds.activeValues
    (.dict (ANSWER_FIELDS.map Str.ofString) fun k =>
      if k = Str.ofString "minimumNormalizedScore" then c.minimumAnswerScore.document else c.minimumRefusalAccuracy.document)
    (listOf (c.sliceFloors.map (·.document)))

/-- The constructor's reading of an event; what `_calibration_event` refuses is malformed. -/
def eventAgain (e : CalibrationEvent) : Except Raised CalibrationEvent :=
  match calibrationEvent fromisoformat e.document with
  | .error (.valueError _) => .error (.typeError "evaluation thresholds are malformed")
  | result => result

/-- `if not condition: raise TypeError(…)`. -/
def requireShape (condition : Bool) : Except Raised Unit :=
  if condition then .ok () else .error (.typeError "evaluation thresholds are malformed")

/-- `_validate_threshold_constructor_values`. -/
def Configuration.validate (c : Configuration) : Except Raised Unit := do
  requireShape (coversPairs c.sliceFloors && decide (c.sliceFloors = sortedBy (·.rank) c.sliceFloors) &&
    decide (c.recordedCalibrationEvents.length ≤ 1))
  let events ← c.recordedCalibrationEvents.mapM (eventAgain fromisoformat)
  requireShape (!(hasConfiguredValue (c.minimumAnswerScore, c.minimumRefusalAccuracy) c.sliceFloors && events.isEmpty))
  requireShape (events.getLast?.all fun event => event.newValues.equals c.activeValues)

/-- `EvaluationThresholds`, which only its constructor builds. -/
structure EvaluationThresholds where
  configuration : Configuration
  valid : configuration.validate fromisoformat = .ok ()

/-- `EvaluationThresholds(configuration)`. -/
def construct (c : Configuration) : Except Raised (EvaluationThresholds fromisoformat) :=
  match h : c.validate fromisoformat with
  | .ok () => .ok ⟨c, h⟩
  | .error e => .error e

/-- `load_thresholds`. -/
def loadThresholds (document : Option Decoded) (authority : SourceAuthority) :
    Except Raised (EvaluationThresholds fromisoformat) := do
  let configuration ← loadConfiguration fromisoformat document authority
  construct fromisoformat configuration

end Loading

end Thresholds

end ContextEngine.Learning
