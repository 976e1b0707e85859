/-
  ContextEngine.Control.FileChangePages — File change pages and their durable acceptance
  (`engine/control/file_change_pages.py`, `engine/control/file_imports.py`, and the accept
  and read functions of `migrations/versions` 0028, 0030, 0035 and 0045).

  The tables are those of one source of one Organization. A page, its changes, its
  checkpoint and its delete-observation binding are written together, so they are one row;
  rows stand newest first, which is the order of their sequences. References are digests of
  canonical documents. A digest is known by its document: the digest functions are
  injective functions into a type of references.
-/

import ContextEngine.Python.Sorted
import ContextEngine.Runtime.Evidence

namespace ContextEngine.Control

open ContextEngine.Python ContextEngine.Runtime

/-! ## Paths -/

def MAX_FILE_CHANGE_PAGE_SIZE : Nat := 100
def MAX_CONFIGURED_FILE_CHANGE_BASELINE_SIZE : Nat := 15000

/-- `value.casefold().endswith(".md")`; only the ASCII letters fold to these. -/
def endsMarkdown (cs : List Char) : Bool :=
  match cs.reverse with
  | d :: m :: dot :: _ => (d == 'd' || d == 'D') && (m == 'm' || m == 'M') && dot == '.'
  | _ => false

/-- The components of a path. -/
def parts (cs : List Char) : List (List Char) := cs.splitOn '/'

/-- What `FileImportPath.__post_init__` requires. -/
def isImportPath (value : String) : Bool :=
  let cs := value.toList
  !cs.isEmpty && !cs.head?.any isspace && !cs.getLast?.any isspace && !cs.contains '\\' && endsMarkdown cs &&
    decide (cs.length ≤ 255) && (parts cs).all (fun p => !p.isEmpty && p != ['.'] && p != ['.', '.']) &&
    cs.all (fun c => decide (0x20 ≤ c.toNat))

/-- One canonical relative Markdown path. -/
structure FileImportPath where
  value : String
  well_formed : isImportPath value = true
  deriving DecidableEq

/-- `[[:space:]]` and the separators that the accept function lists. -/
def sqlSpace (c : Char) : Bool :=
  let n := c.toNat
  decide (9 ≤ n ∧ n ≤ 13) || n == 0x20 || n == 0x85 || n == 0xa0 || n == 0x1680 || decide (0x2000 ≤ n ∧ n ≤ 0x200a) ||
    n == 0x2028 || n == 0x2029 || n == 0x202f || n == 0x205f || n == 0x3000

/-- The accept function's path predicate. -/
def acceptsPath (value : String) : Bool :=
  let cs := value.toList
  !cs.contains '\\' && (parts cs).dropLast.all (!·.isEmpty) && endsMarkdown ((parts cs).getLast?.getD []) &&
    (parts cs).all (fun p => p != ['.'] && p != ['.', '.']) && cs.head? != some ' ' && cs.getLast? != some ' ' &&
    decide (cs.length ≤ 255) && !cs.any (fun c => decide (1 ≤ c.toNat ∧ c.toNat ≤ 0x1f)) && !cs.head?.any sqlSpace &&
    !cs.getLast?.any sqlSpace

/-! ## Changes and pages -/

inductive FileChangeKind where
  | upsert
  | delete
  deriving DecidableEq

/-- A content digest, 64 lowercase hexadecimal characters. -/
structure ContentDigest where
  value : String
  well_formed : isSha256 value = true
  deriving DecidableEq

/-- One content-free File observation. -/
structure Change where
  kind : FileChangeKind
  path : FileImportPath
  contentSha256 : ContentDigest
  contentLength : Nat
  deriving DecidableEq

/-- The paths are in canonical order, each once. -/
def canonicalOrder (changes : List Change) : Bool := decide ((changes.map (·.path.value)).Pairwise (· < ·))

section Contracts

variable (D : Type)

/-- Exact terminal page of a fully accepted scan. -/
structure FileChangeBaselineRef where
  sourceVersionRef : UUID
  scanRef : D
  scanEpoch : D
  pageRef : D
  checkpointRef : D
  sequence : Nat
  scanBound : Nat
  deriving DecidableEq

/-- What `_scan_ref` digests. -/
structure ScanDocument where
  sourceVersionRef : UUID
  scanBound : Nat
  entries : List Change
  baseline : Option (FileChangeBaselineRef D)
  deriving DecidableEq

/-- The head that a new epoch follows. -/
structure EpochPredecessor where
  checkpointRef : D
  pageRef : D
  scanEpoch : D
  sequence : Nat
  deriving DecidableEq

/-- What `_scan_epoch` digests. -/
structure EpochDocument where
  sourceVersionRef : UUID
  scanRef : D
  predecessor : Option (EpochPredecessor D)
  deriving DecidableEq

/-- The signed claims of a pending cursor. -/
structure PendingChangeCursor where
  sourceVersionRef : UUID
  scanRef : D
  scanEpoch : D
  scanBound : Nat
  limit : Nat
  offset : Nat
  deriving DecidableEq

/-- The accepted page that a continuation follows. -/
structure PagePredecessor where
  pageRef : D
  checkpointRef : D
  sequence : Nat
  deriving DecidableEq

/-- Bounded deterministic File change page; it is what its `page_ref` digests. -/
structure ChangePage where
  sourceVersionRef : UUID
  scanRef : D
  scanEpoch : D
  pageLimit : Nat
  predecessor : Option (PagePredecessor D)
  supersededScanEpoch : Option D
  baselineRef : Option (FileChangeBaselineRef D)
  changes : List Change
  nextCursor : Option (PendingChangeCursor D)
  complete : Bool
  scanBound : Nat
  deriving DecidableEq

/-- Collision-free digests of the documents. -/
structure Digests where
  scan : ScanDocument D → D
  epoch : EpochDocument D → D
  page : ChangePage D → D
  /-- The checkpoint ref of a sequence number and a page. -/
  checkpoint : Nat → D → D
  scan_inj : Function.Injective scan
  epoch_inj : Function.Injective epoch
  page_inj : Function.Injective page

/-- `ChangePage.__post_init__`, on what the types leave open. -/
def ChangePage.valid {D : Type} (p : ChangePage D) : Bool :=
  decide (1 ≤ p.pageLimit ∧ p.pageLimit ≤ MAX_FILE_CHANGE_PAGE_SIZE) &&
    decide (1 ≤ p.scanBound ∧ p.scanBound ≤ MAX_CONFIGURED_FILE_CHANGE_BASELINE_SIZE) &&
    !(p.predecessor.isSome && p.supersededScanEpoch.isSome) &&
    p.baselineRef.all (·.sourceVersionRef == p.sourceVersionRef) && decide (p.changes.length ≤ p.pageLimit) &&
    p.complete == p.nextCursor.isNone && (p.complete || !p.changes.isEmpty) && canonicalOrder p.changes

/-! ## Tables -/

/-- One accepted page with its changes, its checkpoint and its binding. -/
structure PageRow where
  sourceVersionRef : UUID
  pageRef : D
  scanRef : D
  scanEpoch : D
  pageLimit : Nat
  supersededScanEpoch : Option D
  predecessorPageRef : Option D
  pageOrdinal : Nat
  changes : List Change
  complete : Bool
  scanBound : Nat
  checkpointRef : D
  sequence : Nat
  /-- The baseline page of its delete-observation binding; a v3 page has no binding. -/
  binding : Option (Option D)
  deriving DecidableEq

/-- The page tables of one source, newest first. -/
structure Tables where
  activeVersion : UUID
  pages : List (PageRow D)
  /-- The last sequence number of any checkpoint, also of those that are no pages. -/
  lastSequence : Nat
  deriving DecidableEq

end Contracts

section Acceptance

variable {D : Type} [DecidableEq D] (d : Digests D)

/-- The rows of one scan. -/
def Tables.scan (t : Tables D) (version : UUID) (scanRef scanEpoch : D) : List (PageRow D) :=
  t.pages.filter fun r => r.sourceVersionRef == version && r.scanRef == scanRef && r.scanEpoch == scanEpoch

/-- The rows of one epoch. -/
def Tables.epoch (t : Tables D) (version : UUID) (scanEpoch : D) : List (PageRow D) :=
  t.pages.filter fun r => r.sourceVersionRef == version && r.scanEpoch == scanEpoch

def changeCount (rows : List (PageRow D)) : Nat := (rows.map (·.changes.length)).sum

/-- The row a baseline ref names, if it is the complete page it says. -/
def Tables.baselineRow (t : Tables D) (version : UUID) (b : FileChangeBaselineRef D) : Option (PageRow D) :=
  t.pages.find? fun r => r.sourceVersionRef == version && r.pageRef == b.pageRef && r.scanRef == b.scanRef &&
    r.scanEpoch == b.scanEpoch && r.checkpointRef == b.checkpointRef && r.sequence == b.sequence && r.complete &&
    r.binding.isSome

/-- `baseline is the latest complete page`. -/
def Tables.latestComplete (t : Tables D) (version : UUID) : Option (PageRow D) :=
  t.pages.find? fun r => r.sourceVersionRef == version && r.complete && r.binding.isSome

/-- Some upsert of the baseline scan has the path and content of a delete. -/
def Tables.deleteMatches (t : Tables D) (version : UUID) (baseline : Option (PageRow D)) (c : Change) : Bool :=
  baseline.any fun b => (t.epoch version b.scanEpoch).any fun r => r.changes.any fun u =>
    u.kind == .upsert && u.path == c.path && u.contentSha256 == c.contentSha256 && u.contentLength == c.contentLength

structure AcceptedChangePage (D : Type) where
  pageRef : D
  checkpointRef : D
  sequence : Nat
  deriving DecidableEq

/-- The baseline page a new page must be bound to: the latest complete one for a new scan,
    the scan's own for a continuation. -/
def Tables.expectedBaseline (t : Tables D) (p : ChangePage D) : Option (Option D) :=
  match p.predecessor with
  | none => some ((t.latestComplete p.sourceVersionRef).map (·.pageRef))
  | some _ =>
    ((t.scan p.sourceVersionRef p.scanRef p.scanEpoch).find? (·.pageOrdinal == 1)).bind (·.binding)

/-- The row that the page becomes. -/
def ChangePage.row (p : ChangePage D) (ordinal sequence : Nat) : PageRow D where
  sourceVersionRef := p.sourceVersionRef
  pageRef := d.page p
  scanRef := p.scanRef
  scanEpoch := p.scanEpoch
  pageLimit := p.pageLimit
  supersededScanEpoch := p.supersededScanEpoch
  predecessorPageRef := p.predecessor.map (·.pageRef)
  pageOrdinal := ordinal
  changes := p.changes
  complete := p.complete
  scanBound := p.scanBound
  checkpointRef := d.checkpoint sequence (d.page p)
  sequence := sequence
  binding := some (p.baselineRef.map (·.pageRef))

/-- `context_internal_accept_file_delete_observation_page`, for a page that is in the tables:
    an exact replay. -/
def replay (p : ChangePage D) (r : PageRow D) : Option (AcceptedChangePage D) :=
  if r.sourceVersionRef = p.sourceVersionRef ∧ r.scanRef = p.scanRef ∧ r.scanEpoch = p.scanEpoch ∧
      r.pageLimit = p.pageLimit ∧ r.predecessorPageRef = p.predecessor.map (·.pageRef) ∧ r.changes = p.changes ∧
      r.complete = p.complete then some ⟨r.pageRef, r.checkpointRef, r.sequence⟩
  else none

/-- The page follows the head of the tables: it supersedes the head's epoch, or continues
    the head's page. -/
def Tables.followsHead (t : Tables D) (p : ChangePage D) : Bool :=
  match p.predecessor with
  | none => p.supersededScanEpoch == t.pages.head?.map (·.scanEpoch)
  | some pred => t.pages.head?.any fun r =>
      r.pageRef == pred.pageRef && r.checkpointRef == pred.checkpointRef && r.sequence == pred.sequence

/-- The ordinal of a new page in its scan, if it may have one. -/
def Tables.nextOrdinal (t : Tables D) (p : ChangePage D) : Option Nat :=
  let scan := t.scan p.sourceVersionRef p.scanRef p.scanEpoch
  match scan.head? with
  | none => if p.predecessor.isNone then some 1 else none
  | some last =>
    if p.predecessor.map (·.pageRef) = some last.pageRef ∧ scan.all (!·.complete) = true then some (last.pageOrdinal + 1)
    else none

/-- `context_internal_accept_file_delete_observation_page`; the constraints of the tables
    stand with the insertion. -/
def acceptInternal (t : Tables D) (p : ChangePage D) : Option (Tables D × AcceptedChangePage D) := do
  guard (1 ≤ p.pageLimit ∧ p.pageLimit ≤ 100 ∧ p.changes.length ≤ p.pageLimit)
  guard (p.changes.all fun c => acceptsPath c.path.value)
  guard (p.predecessor.isNone ∨ p.supersededScanEpoch.isNone)
  guard (t.activeVersion = p.sourceVersionRef)
  match t.pages.find? (·.pageRef == d.page p) with
  | some r => return (t, ← replay p r)
  | none =>
    guard (t.followsHead p)
    let ordinal ← t.nextOrdinal p
    guard (p.supersededScanEpoch ≠ some p.scanEpoch ∧ p.baselineRef.map (·.pageRef) ≠ some (d.page p) ∧
      (t.epoch p.sourceVersionRef p.scanEpoch).all (·.pageOrdinal != ordinal) = true)
    let r := p.row d ordinal (t.lastSequence + 1)
    return ({ t with pages := r :: t.pages, lastSequence := t.lastSequence + 1 }, ⟨r.pageRef, r.checkpointRef, r.sequence⟩)

/-- `context_control_accept_file_delete_observation_page`, with the ceiling of 0045. -/
def acceptDeleteObservation (t : Tables D) (p : ChangePage D) : Option (Tables D × AcceptedChangePage D) := do
  guard (p.baselineRef.all (·.sourceVersionRef == p.sourceVersionRef))
  let baseline := p.baselineRef.bind (t.baselineRow p.sourceVersionRef)
  guard (p.baselineRef.isSome → baseline.isSome)
  guard (p.changes.all fun c => c.kind != .delete || t.deleteMatches p.sourceVersionRef baseline c)
  match t.pages.find? (fun r => r.sourceVersionRef == p.sourceVersionRef && r.pageRef == d.page p && r.binding.isSome) with
  | some r => guard (r.binding = some (baseline.map (·.pageRef)))
  | none =>
    let expected ← t.expectedBaseline p
    guard (expected = baseline.map (·.pageRef))
    guard (changeCount (t.scan p.sourceVersionRef p.scanRef p.scanEpoch) + p.changes.length ≤
      MAX_CONFIGURED_FILE_CHANGE_BASELINE_SIZE)
  acceptInternal d t p

/-- `context_control_accept_bounded_file_delete_observation_page`. -/
def accept (t : Tables D) (p : ChangePage D) : Option (Tables D × AcceptedChangePage D) := do
  guard (1 ≤ p.scanBound ∧ p.scanBound ≤ MAX_CONFIGURED_FILE_CHANGE_BASELINE_SIZE)
  let scan := t.scan p.sourceVersionRef p.scanRef p.scanEpoch
  guard (scan.all (·.scanBound == p.scanBound))
  guard (changeCount (scan.filter (·.pageRef != d.page p)) + p.changes.length ≤ p.scanBound)
  acceptDeleteObservation d t p

/-! ## Reads -/

/-- Control-read durable head. -/
structure FileChangeScanHead (D : Type) where
  sourceVersionRef : UUID
  scanRef : D
  scanEpoch : D
  pageLimit : Nat
  pageRef : D
  checkpointRef : D
  sequence : Nat
  complete : Bool
  scanBound : Nat
  supersededScanEpoch : Option D
  deriving DecidableEq

/-- The complete baseline, with the reference its own scan was compared with. -/
structure FileChangeBaseline (D : Type) where
  reference : FileChangeBaselineRef D
  comparisonBaselineRef : Option (FileChangeBaselineRef D)
  entries : List Change
  deriving DecidableEq

/-- Trusted active version and current durable progress. -/
structure FileChangeSource (D : Type) where
  versionRef : UUID
  scanHead : Option (FileChangeScanHead D)
  completeBaseline : Option (FileChangeBaseline D)
  deriving DecidableEq

/-- `change_head` of `context_control_read_file_source_progress`. -/
def Tables.readHead (t : Tables D) : Option (FileChangeScanHead D) :=
  t.pages.findSome? fun r => ((t.epoch r.sourceVersionRef r.scanEpoch).find? (·.pageOrdinal == 1)).map fun initial =>
    ⟨r.sourceVersionRef, r.scanRef, r.scanEpoch, initial.pageLimit, r.pageRef, r.checkpointRef, r.sequence, r.complete,
      r.scanBound, initial.supersededScanEpoch⟩

/-- The reference of a row. -/
def PageRow.reference (r : PageRow D) : FileChangeBaselineRef D :=
  ⟨r.sourceVersionRef, r.scanRef, r.scanEpoch, r.pageRef, r.checkpointRef, r.sequence, r.scanBound⟩

/-- The changes of one epoch, in the order of its pages. -/
def Tables.entries (t : Tables D) (version : UUID) (scanEpoch : D) : List Change :=
  (sortedBy (·.pageOrdinal) (t.epoch version scanEpoch)).flatMap (·.changes)

/-- `FileChangeBaseline.__post_init__`. -/
def FileChangeBaseline.valid (b : FileChangeBaseline D) : Bool :=
  decide (b.entries.length ≤ MAX_CONFIGURED_FILE_CHANGE_BASELINE_SIZE ∧ b.entries.length ≤ b.reference.scanBound) &&
    canonicalOrder b.entries && b.comparisonBaselineRef.all fun c =>
      c.sourceVersionRef == b.reference.sourceVersionRef && decide (c.sequence < b.reference.sequence)

/-- `context_control_read_complete_file_change_baseline`, before the contract's checks. -/
def Tables.baseline (t : Tables D) : Option (FileChangeBaseline D) :=
  (t.latestComplete t.activeVersion).map fun r =>
    { reference := r.reference
      comparisonBaselineRef := (r.binding.bind id).bind fun parent =>
        (t.pages.find? fun b => b.sourceVersionRef == r.sourceVersionRef && b.pageRef == parent).map (·.reference)
      entries := t.entries r.sourceVersionRef r.scanEpoch }

/-- What Control reads for the Provider; `none` is a read that raises. -/
def Tables.read (t : Tables D) : Option (FileChangeSource D) :=
  if t.baseline.all (·.valid) then some ⟨t.activeVersion, t.readHead, t.baseline⟩ else none

end Acceptance

end ContextEngine.Control
