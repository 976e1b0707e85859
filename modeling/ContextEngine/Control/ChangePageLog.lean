/-
  ContextEngine.Control.ChangePageLog — the accept functions of File change pages, as the
  database runs them on any arguments (`migrations/versions` 0028, 0030, 0035 and 0045:
  `context_control_accept_file_change_page`,
  `context_control_accept_bounded_file_delete_observation_page` and what it calls).

  `ContextEngine.Control.FileChangePages` is about the pages that Control builds, whose
  refs are digests of their contents. Here a request is whatever the caller passes: refs,
  epochs, ordinals and changes need not belong together.

  The state is the page tables of one source. Both functions hold the source's progress
  lock, so a call is one step. A page, its changes, its checkpoint and its binding are
  written together: they are one row. Rows stand newest first. An argument that is NULL or
  malformed is refused by the opening checks, by a comparison that is not true, or by a
  column that is not nullable; none of these changes the tables.
-/

import ContextEngine.Control.FileChangePages
import ContextEngine.Machine.Runs
import ContextEngine.Postgres.Values

namespace ContextEngine.Control.PageLog

open ContextEngine.Postgres ContextEngine.Python ContextEngine.Runtime

/-! ## Rows -/

/-- A row of `file_source_change`. -/
structure ChangeRow where
  changeKind : String
  relativePath : String
  contentSha256 : String
  contentLength : Int
  deriving DecidableEq

/-- A row of `file_source_change_page` with its changes, its checkpoint and its binding. -/
structure PageRow where
  sourceVersionId : UUID
  pageRef : String
  scanRef : String
  scanEpoch : UUID
  pageLimit : Int
  supersededScanEpoch : Option UUID
  predecessorPageRef : Option String
  pageOrdinal : Nat
  changes : List ChangeRow
  complete : Bool
  scanBound : Int
  acceptedAt : Timestamp
  checkpointRef : String
  sequence : Nat
  /-- The baseline page of its delete-observation binding; a v3 page has no binding. -/
  binding : Option (Option String)
  deriving DecidableEq

inductive Manifest where
  | v3
  | v4
  | other
  deriving DecidableEq

/-- One source. -/
structure Tables where
  organizationId : UUID
  sourceId : UUID
  /-- `context_source`: its version and whether it is active. -/
  activeVersionId : UUID
  sourceActive : Bool
  /-- `source_version`: the manifest of each version, which never changes. -/
  manifest : UUID → Manifest
  pages : List PageRow
  /-- The last sequence number of any checkpoint of the source. -/
  lastSequence : Nat
  /-- Page refs and checkpoint refs that other checkpoints of the Organization carry. -/
  takenPageRefs : List String
  takenCheckpointRefs : List String
  /-- `file_scan_refusal_bound`. -/
  scanRefusal : Option Int

/-! ## Arguments -/

/-- The arguments of the two functions; only the second has a bound and a baseline. -/
structure PageRequest where
  sessionUser : Role
  sourceVersionId : Option UUID
  scanRef : Option String
  scanEpoch : Option UUID
  pageLimit : Option Int
  pageRef : Option String
  predecessorPageRef : Option String
  predecessorCheckpointRef : Option String
  predecessorSequence : Option Int
  supersededScanEpoch : Option UUID
  changes : Option Jsonb
  complete : Option Bool

/-- `^facp_[0-9a-f]{64}$`. -/
def isCheckpointRef (s : String) : Bool := s.startsWith "facp_" && isSha256 (s.drop 5).toString

section Arguments

variable (server : Server)

/-- One entry of `requested_changes`, as the row it becomes. -/
def changeRow (element : Jsonb) : Option ChangeRow := do
  guard (Jsonb.isA .object (some element))
  guard (Jsonb.isA .string (element.get "path"))
  let path ← server.text (element.get "path")
  guard (acceptsPath path)
  let kind ← server.text (element.get "kind")
  guard (kind = "upsert" ∨ kind = "delete")
  let digest ← server.text (element.get "contentSha256")
  guard (isSha256 digest)
  let length ← (server.text (element.get "contentLength")).bind server.bigint
  guard (0 ≤ length)
  some ⟨kind, path, digest, length⟩

def changeRows : Option Jsonb → Option (List ChangeRow)
  | some (.array elements) => elements.mapM (changeRow server)
  | _ => none

/-- A request whose arguments are all there. -/
structure Arguments where
  sourceVersionId : UUID
  scanRef : String
  scanEpoch : UUID
  pageLimit : Int
  pageRef : String
  predecessorPageRef : Option String
  predecessorCheckpointRef : Option String
  predecessorSequence : Option Int
  supersededScanEpoch : Option UUID
  changes : List ChangeRow
  complete : Bool
  /-- A continuation supersedes nothing. -/
  exclusive : predecessorPageRef = none ∨ supersededScanEpoch = none
  deriving DecidableEq

/-- The opening checks. -/
def PageRequest.arguments (r : PageRequest) : Option Arguments := do
  guard (r.sessionUser = .control)
  let sourceVersionId ← r.sourceVersionId
  let scanRef ← r.scanRef
  guard (isSha256 scanRef)
  let scanEpoch ← r.scanEpoch
  let pageLimit ← r.pageLimit
  guard (1 ≤ pageLimit ∧ pageLimit ≤ 100)
  let pageRef ← r.pageRef
  guard (isSha256 pageRef)
  let complete ← r.complete
  guard (r.predecessorPageRef.isNone = (r.predecessorCheckpointRef.isNone && r.predecessorSequence.isNone))
  guard (r.predecessorCheckpointRef.all fun ref => isCheckpointRef ref &&
    r.predecessorSequence.all fun n => decide (1 ≤ n ∧ n ≤ (MAX_BIGINT : Int)))
  let changes ← changeRows server r.changes
  guard ((changes.length : Int) ≤ pageLimit)
  if exclusive : r.predecessorPageRef = none ∨ r.supersededScanEpoch = none then
    some ⟨sourceVersionId, scanRef, scanEpoch, pageLimit, pageRef, r.predecessorPageRef, r.predecessorCheckpointRef,
      r.predecessorSequence, r.supersededScanEpoch, changes, complete, exclusive⟩
  else none

end Arguments

/-! ## Acceptance -/

/-- What the functions return. -/
structure Receipt where
  sourceVersionId : UUID
  pageRef : String
  checkpointRef : String
  sequence : Nat
  changeCount : Nat
  complete : Bool
  acceptedAt : Timestamp
  supersededScanEpoch : Option UUID
  pageLimit : Int
  scanBound : Int
  deriving DecidableEq

section Acceptance

variable (server : Server) (t : Tables)

/-- The rows of one epoch of one version. -/
def Tables.epoch (version : UUID) (scanEpoch : UUID) : List PageRow :=
  t.pages.filter fun p => p.sourceVersionId == version && p.scanEpoch == scanEpoch

/-- The rows of one scan. -/
def Tables.scan (a : Arguments) : List PageRow :=
  t.pages.filter fun p => p.sourceVersionId == a.sourceVersionId && p.scanRef == a.scanRef && p.scanEpoch == a.scanEpoch

/-- The result row of a page: its epoch's first page says what it superseded. -/
def Tables.receipt (p : PageRow) : Option Receipt :=
  ((t.epoch p.sourceVersionId p.scanEpoch).find? (·.pageOrdinal = 1)).map fun initial =>
    ⟨p.sourceVersionId, p.pageRef, p.checkpointRef, p.sequence, p.changes.length, p.complete, p.acceptedAt,
      initial.supersededScanEpoch, p.pageLimit, p.scanBound⟩

/-- A page that is in the tables is answered when every argument is its own. -/
def Arguments.replays (a : Arguments) (p : PageRow) : Bool :=
  p.sourceVersionId == a.sourceVersionId && p.scanRef == a.scanRef && p.scanEpoch == a.scanEpoch &&
    p.pageLimit == a.pageLimit && p.predecessorPageRef == a.predecessorPageRef && p.changes == a.changes &&
    p.complete == a.complete

/-- The head check: a new scan supersedes the head's epoch, a continuation names the head. -/
def Tables.followsHead (a : Arguments) : Bool :=
  match a.predecessorPageRef with
  | none => a.supersededScanEpoch == t.pages.head?.map (·.scanEpoch)
  | some ref => t.pages.head?.any fun p =>
      p.pageRef == ref && a.predecessorCheckpointRef == some p.checkpointRef &&
        a.predecessorSequence == some (p.sequence : Int)

/-- The tail check: the ordinal of the page in its scan, if it may have one. -/
def Tables.nextOrdinal (a : Arguments) : Option Nat :=
  match (t.scan a).head? with
  | none => if a.predecessorPageRef.isNone then some 1 else none
  | some last =>
    if a.predecessorPageRef = some last.pageRef ∧ (t.scan a).all (!·.complete) = true then some (last.pageOrdinal + 1)
    else none

/-- `int8send`. -/
def int8send (n : Nat) : List UInt8 := (List.range 8).reverse.map fun i => UInt8.ofNat (n / 256 ^ i)

def hexValue (c : Char) : Nat := hexDigits.idxOf c

/-- `decode(text, 'hex')`. -/
def decodeHex : List Char → List UInt8
  | a :: b :: rest => UInt8.ofNat (16 * hexValue a + hexValue b) :: decodeHex rest
  | _ => []

/-- The checkpoint ref of a page at a sequence number. -/
def Tables.checkpointRef (sequence : Nat) (pageRef : String) : String :=
  "facp_" ++ (server.digest (encode "context-engine.file-change-page-checkpoint.v1" ++ [0] ++ t.organizationId.bytes ++
    t.sourceId.bytes ++ int8send sequence ++ decodeHex pageRef.toList)).hexdigest

def Tables.newRow (a : Arguments) (ordinal : Nat) (scanBound : Int) (binding : Option (Option String)) (now : Timestamp) :
    PageRow where
  sourceVersionId := a.sourceVersionId
  pageRef := a.pageRef
  scanRef := a.scanRef
  scanEpoch := a.scanEpoch
  pageLimit := a.pageLimit
  supersededScanEpoch := a.supersededScanEpoch
  predecessorPageRef := a.predecessorPageRef
  pageOrdinal := ordinal
  changes := a.changes
  complete := a.complete
  scanBound := scanBound
  acceptedAt := now
  checkpointRef := t.checkpointRef server (t.lastSequence + 1) a.pageRef
  sequence := t.lastSequence + 1
  binding := binding

/-- The constraints and triggers of the tables, for a new row. -/
def Tables.admits (p : PageRow) : Bool :=
  decide (p.supersededScanEpoch ≠ some p.scanEpoch) && decide (p.pageOrdinal ≤ MAX_BIGINT) &&
    decide (p.sequence ≤ MAX_BIGINT) && (t.epoch p.sourceVersionId p.scanEpoch).all (·.pageOrdinal != p.pageOrdinal) &&
    !t.takenPageRefs.contains p.pageRef && !t.takenCheckpointRefs.contains p.checkpointRef &&
    t.pages.all (·.checkpointRef != p.checkpointRef) && p.binding.all (· != some (some p.pageRef)) &&
    decide (1 ≤ p.scanBound ∧ p.scanBound ≤ 15000) &&
    (p.binding.isSome || p.changes.all (·.changeKind == "upsert"))

def Tables.insert (p : PageRow) : Tables := { t with pages := p :: t.pages, lastSequence := p.sequence }

/-- `context_control_accept_file_change_page`, and under the v4 manifest
    `context_internal_accept_file_delete_observation_page`. -/
def acceptPage (manifest : Manifest) (a : Arguments) (scanBound : Int) (binding : Option (Option String)) (now : Timestamp) :
    Option (Receipt × Tables) := do
  guard (t.sourceActive ∧ t.activeVersionId = a.sourceVersionId ∧ t.manifest a.sourceVersionId = manifest)
  match t.pages.find? (·.pageRef = a.pageRef) with
  | some p =>
    guard (a.replays p)
    let receipt ← t.receipt p
    some (receipt, t)
  | none =>
    guard (t.followsHead a)
    let ordinal ← t.nextOrdinal a
    let p := t.newRow server a ordinal scanBound binding now
    guard (t.admits p)
    let receipt ← (t.insert p).receipt p
    some (receipt, t.insert p)

/-- `context_control_accept_file_change_page`. Without a bound of its own a page takes the
    default one. -/
def acceptFileChangePage (r : PageRequest) (now : Timestamp) : Option (Receipt × Tables) := do
  let a ← r.arguments server
  acceptPage server t .v3 a 10000 none now

/-- `^[1-9][0-9]{0,18}$`. -/
def isSequenceText (s : String) : Bool :=
  match s.toList with
  | c :: cs => c != '0' && c.isDigit && cs.all (·.isDigit) && decide (cs.length ≤ 18)
  | [] => false

def baselineKeys : List String := ["checkpointRef", "pageRef", "scanEpoch", "scanRef", "sequence", "sourceVersionId"]

/-- What a baseline argument says of its page. -/
structure BaselineKey where
  checkpointRef : String
  pageRef : String
  scanRef : String
  scanEpoch : String
  sequence : Int

def baselineKey (version : UUID) (baseline : Jsonb) : Option BaselineKey := do
  match baseline with
  | .object members =>
    guard (members.length = 6 ∧ baselineKeys.all (fun k => members.any (·.1 = k)) = true)
    let checkpointRef ← server.text (baseline.get "checkpointRef")
    guard (isCheckpointRef checkpointRef)
    let pageRef ← server.text (baseline.get "pageRef")
    guard (isSha256 pageRef)
    let scanRef ← server.text (baseline.get "scanRef")
    guard (isSha256 scanRef)
    let sequence ← server.text (baseline.get "sequence")
    guard (isSequenceText sequence)
    let sequence ← server.bigint sequence
    let scanEpoch ← server.text (baseline.get "scanEpoch")
    guard (server.text (baseline.get "sourceVersionId") = some (server.uuidText version))
    some ⟨checkpointRef, pageRef, scanRef, scanEpoch, sequence⟩
  | _ => none

/-- The key names the page, and the page is complete. -/
def BaselineKey.names (k : BaselineKey) (version : UUID) (p : PageRow) : Bool :=
  decide (p.sourceVersionId = version ∧ p.pageRef = k.pageRef ∧ p.scanRef = k.scanRef ∧
    server.uuidText p.scanEpoch = k.scanEpoch ∧ p.checkpointRef = k.checkpointRef ∧ (p.sequence : Int) = k.sequence ∧
    p.complete = true ∧ p.binding.isSome = true)

/-- The complete page that a baseline argument names. -/
def Tables.baselineRow (version : UUID) (baseline : Jsonb) : Option PageRow :=
  (baselineKey server version baseline).bind fun k => t.pages.find? (k.names server version)

/-- Some upsert of the baseline's epoch has the path and the content of a delete. -/
def Tables.deleteMatches (version : UUID) (baseline : Option PageRow) (c : ChangeRow) : Bool :=
  baseline.any fun b => (t.epoch version b.scanEpoch).any fun p => p.changes.any fun u =>
    u.changeKind == "upsert" && u.relativePath == c.relativePath && u.contentSha256 == c.contentSha256 &&
      u.contentLength == c.contentLength

/-- The baseline page a new page must name: the latest complete one for a new scan, the
    scan's own for a continuation. -/
def Tables.expectedBaseline (a : Arguments) : Option (Option String) :=
  match a.predecessorPageRef with
  | none => some ((t.pages.find? fun p => p.sourceVersionId == a.sourceVersionId && p.complete && p.binding.isSome).map
      (·.pageRef))
  | some _ => ((t.scan a).find? (·.pageOrdinal = 1)).bind (·.binding)

def changeCount (rows : List PageRow) : Nat := (rows.map (·.changes.length)).sum

/-- The baseline argument; absent is NULL, and one that names no page is refused. -/
def Tables.requestedBaseline (version : UUID) : Option Jsonb → Option (Option PageRow)
  | none => some none
  | some baseline => (t.baselineRow server version baseline).map some

/-- `context_control_accept_file_delete_observation_page`, with the ceiling of 0045. -/
def acceptFileDeleteObservationPage (a : Arguments) (baseline : Option Jsonb) (scanBound : Int) (now : Timestamp) :
    Option (Receipt × Tables) := do
  let requested ← t.requestedBaseline server a.sourceVersionId baseline
  guard (a.changes.all fun c => c.changeKind != "delete" || t.deleteMatches a.sourceVersionId requested c)
  let ref := requested.map (·.pageRef)
  match t.pages.find? fun p => p.sourceVersionId == a.sourceVersionId && p.pageRef == a.pageRef && p.binding.isSome with
  | some p => guard (p.binding = some ref)
  | none =>
    let expected ← t.expectedBaseline a
    guard (expected = ref)
    guard (changeCount (t.scan a) + a.changes.length ≤ 15000)
  acceptPage server t .v4 a scanBound (some ref) now

/-- `context_control_accept_bounded_file_delete_observation_page`. -/
def acceptBounded (r : PageRequest) (scanBound : Option Int) (baseline : Option Jsonb) (now : Timestamp) :
    Option (Receipt × Tables) := do
  let a ← r.arguments server
  let bound ← scanBound
  guard (1 ≤ bound ∧ bound ≤ 15000)
  guard ((t.scan a).all fun p => decide (p.scanBound = bound))
  guard ((changeCount ((t.scan a).filter fun p => decide (p.pageRef ≠ a.pageRef)) : Int) + a.changes.length ≤ bound)
  let existing := t.pages.any fun p => decide (p.sourceVersionId = a.sourceVersionId ∧ p.pageRef = a.pageRef)
  let (receipt, t') ← acceptFileDeleteObservationPage server t a baseline bound now
  guard (receipt.scanBound = bound)
  some (receipt, if a.complete ∧ existing = false then { t' with scanRefusal := none } else t')

/-! ## Steps -/

inductive Call where
  | accept (r : PageRequest) (now : Timestamp)
  | acceptBounded (r : PageRequest) (scanBound : Option Int) (baseline : Option Jsonb) (now : Timestamp)
  /-- A checkpoint of an import or a tombstone. -/
  | checkpoint
  /-- The source moves to a version, or is taken offline. -/
  | activate (version : UUID) (active : Bool)

/-- One call; `none` is a call that returned no row. -/
def step : Call → Tables × Option Receipt
  | .accept r now =>
    match acceptFileChangePage server t r now with
    | some (receipt, t') => (t', some receipt)
    | none => (t, none)
  | .acceptBounded r scanBound baseline now =>
    match acceptBounded server t r scanBound baseline now with
    | some (receipt, t') => (t', some receipt)
    | none => (t, none)
  | .checkpoint => ({ t with lastSequence := t.lastSequence + 1 }, none)
  | .activate version active => ({ t with activeVersionId := version, sourceActive := active }, none)

end Acceptance

end ContextEngine.Control.PageLog
