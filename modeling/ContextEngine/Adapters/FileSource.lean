/-
  ContextEngine.Adapters.FileSource — the File change Provider, and a scan of a directory
  with it (`adapters/file_source.py`, `applications/file_scan.py`).

  The Provider turns a stable snapshot of the Markdown files into the pages of one scan.
  What it proposes depends on the durable progress that Control read for it: the head and
  the latest complete scan. The signatures on cursors and pages hold by construction: a
  cursor is its claims.
  Properties: `ContextEngine.Adapters.FileSourceProofs`.
-/

import ContextEngine.Control.FileChangePages

namespace ContextEngine.Adapters.FileSource

open ContextEngine.Python ContextEngine.Runtime ContextEngine.Control

/-- A stable observation of the Markdown files, in canonical order. -/
structure Snapshot where
  files : List (FileImportPath × List UInt8)
  canonical : (files.map (·.1.value)).Pairwise (· < ·)

/-- The Provider's own configuration. -/
structure Provider where
  lib : Stdlib
  /-- The curated subtree, with its final slash. -/
  selectionPrefix : Option String
  /-- `max_baseline_entries`. -/
  scanBound : Nat
  bound_range : 1 ≤ scanBound ∧ scanBound ≤ MAX_CONFIGURED_FILE_CHANGE_BASELINE_SIZE

structure ChangeLimit where
  value : Nat
  range : 1 ≤ value ∧ value ≤ MAX_FILE_CHANGE_PAGE_SIZE

/-- Control-acknowledged position: the claims of an accepted page. -/
structure ChangeCursor (D : Type) where
  pendingCursor : PendingChangeCursor D
  scanRef : D
  scanEpoch : D
  pageRef : D
  checkpointRef : D
  sequence : Nat

inductive ProviderOutcome (D : Type) where
  | ok (page : ChangePage D)
  | genericDenied
  | scanBoundExceeded
  | invalidCheckpoint
  /-- A contract of the page refused it. -/
  | raised
  deriving DecidableEq

section Provider

variable {D : Type} [DecidableEq D] (d : Digests D) (pv : Provider)

/-- The observed files as upserts. -/
def Provider.observe (pv : Provider) (s : Snapshot) : List Change := s.files.map fun f =>
  ⟨.upsert, f.1, ⟨(pv.lib.sha256 f.2).hexdigest, isSha256_hexdigest _⟩, f.2.length⟩

/-- The items of a `dict` from path to content identity. -/
def identities (changes : List Change) : List (FileImportPath × ContentDigest × Nat) :=
  changes.map fun c => (c.path, c.contentSha256, c.contentLength)

def upserts (changes : List Change) : List Change := changes.filter (·.kind == .upsert)

def deletes (changes : List Change) : List Change := changes.filter (·.kind == .delete)

/-- `current == active and deleted.isdisjoint(current)`. -/
def unchanged (baseline observed : List Change) : Bool :=
  (identities observed).all ((identities (upserts baseline)).contains ·) &&
    (identities (upserts baseline)).all ((identities observed).contains ·) &&
    (deletes baseline).all fun c => !(observed.map (·.path)).contains c.path

/-- `_baseline_is_current_head`. -/
def baselineIsCurrentHead (source : FileChangeSource D) (b : FileChangeBaselineRef D) : Bool :=
  source.scanHead.any fun head => head.complete && head.sourceVersionRef == b.sourceVersionRef &&
    head.scanRef == b.scanRef && head.scanEpoch == b.scanEpoch && head.pageRef == b.pageRef &&
    head.checkpointRef == b.checkpointRef && head.sequence == b.sequence

/-- The upserts that are gone, as deletes. -/
def missing (baseline observed : List Change) : List Change :=
  ((upserts baseline).filter fun c => !(observed.map (·.path)).contains c.path).map ({ · with kind := .delete })

/-- `_changes`. -/
def changesOf (source : FileChangeSource D) (observed : List Change) : List Change × Option (FileChangeBaselineRef D) :=
  match source.completeBaseline with
  | none => (observed, none)
  | some b =>
    if unchanged b.entries observed then
      (b.entries, if baselineIsCurrentHead source b.reference then b.comparisonBaselineRef else some b.reference)
    else (sortedBy (·.path.value) (observed ++ missing b.entries observed), some b.reference)

/-- `_scan_ref`. -/
def scanRefOf (source : FileChangeSource D) (changes : List Change) (baseline : Option (FileChangeBaselineRef D)) : D :=
  d.scan ⟨source.versionRef, pv.scanBound, changes, baseline⟩

/-- The head is a page of this scan. -/
def headIsOf (source : FileChangeSource D) (scanRef : D) : Option (FileChangeScanHead D) :=
  source.scanHead.filter fun head => head.sourceVersionRef == source.versionRef && head.scanRef == scanRef

/-- `_scan_epoch`: the head's epoch, or a new one that supersedes it. -/
def scanEpochOf (source : FileChangeSource D) (scanRef : D) : D × Option D :=
  match headIsOf source scanRef with
  | some head => (head.scanEpoch, head.supersededScanEpoch)
  | none =>
    (d.epoch ⟨source.versionRef, scanRef, source.scanHead.map fun head =>
      ⟨head.checkpointRef, head.pageRef, head.scanEpoch, head.sequence⟩⟩, source.scanHead.map (·.scanEpoch))

/-- One scan, as its pages carry it. -/
structure Plan (D : Type) where
  sourceVersionRef : UUID
  scanBound : Nat
  changes : List Change
  baselineRef : Option (FileChangeBaselineRef D)
  scanEpoch : D
  pageLimit : Nat

def Plan.scanRef (plan : Plan D) : D :=
  d.scan ⟨plan.sourceVersionRef, plan.scanBound, plan.changes, plan.baselineRef⟩

/-- The page of a scan at one offset. -/
def Plan.page (plan : Plan D) (offset : Nat) (predecessor : Option (PagePredecessor D)) (superseded : Option D) :
    ChangePage D :=
  let selected := (plan.changes.drop offset).take plan.pageLimit
  let nextOffset := offset + selected.length
  { sourceVersionRef := plan.sourceVersionRef
    scanRef := plan.scanRef d
    scanEpoch := plan.scanEpoch
    pageLimit := plan.pageLimit
    predecessor := predecessor
    supersededScanEpoch := superseded
    baselineRef := plan.baselineRef
    changes := selected
    nextCursor := if nextOffset = plan.changes.length then none
      else some ⟨plan.sourceVersionRef, plan.scanRef d, plan.scanEpoch, plan.scanBound, plan.pageLimit, nextOffset⟩
    complete := nextOffset == plan.changes.length
    scanBound := plan.scanBound }

/-- A page that its contract checks. -/
def propose (p : ChangePage D) : ProviderOutcome D := if p.valid then .ok p else .raised

/-- `_cursor_matches`. -/
def cursorMatches (source : FileChangeSource D) (scanRef scanEpoch : D) (limit count : Nat)
    (claims : PendingChangeCursor D) : Bool :=
  claims.sourceVersionRef == source.versionRef && claims.scanRef == scanRef && claims.scanBound == pv.scanBound &&
    claims.scanEpoch == scanEpoch && claims.limit == limit && decide (1 ≤ claims.offset ∧ claims.offset < count)

/-- The head admits an accepted cursor. -/
def headAdmits (source : FileChangeSource D) (c : ChangeCursor D) : Bool :=
  source.scanHead.any fun head => head.sourceVersionRef == source.versionRef && head.scanRef == c.scanRef &&
    head.scanEpoch == c.scanEpoch && decide (c.sequence ≤ head.sequence)

/-- A curated root refuses a baseline that holds files outside its subtree. -/
def deniedBySelection (source : FileChangeSource D) : Bool :=
  pv.selectionPrefix.any fun start => source.completeBaseline.any fun b =>
    b.entries.any fun e => e.kind == .upsert && !start.toList.isPrefixOf e.path.value.toList

/-- `FileChangeProvider.read_changes`; `none` is `InitialScan`. -/
def readChanges (source : FileChangeSource D) (s : Snapshot) (cursor : Option (ChangeCursor D)) (limit : ChangeLimit) :
    ProviderOutcome D :=
  if deniedBySelection pv source then .genericDenied
  else if pv.scanBound < s.files.length then .scanBoundExceeded
  else
    let (changes, baseline) := changesOf source (pv.observe s)
    if pv.scanBound < changes.length then .scanBoundExceeded
    else
      let scanRef := scanRefOf d pv source changes baseline
      match cursor with
      | none =>
        let pageLimit := (headIsOf source scanRef).elim limit.value (·.pageLimit)
        let (scanEpoch, superseded) := scanEpochOf d source scanRef
        propose (Plan.page d ⟨source.versionRef, pv.scanBound, changes, baseline, scanEpoch, pageLimit⟩ 0 none superseded)
      | some accepted =>
        if !headAdmits source accepted then .invalidCheckpoint
        else if !cursorMatches pv source scanRef accepted.scanEpoch limit.value changes.length accepted.pendingCursor then
          .invalidCheckpoint
        else propose (Plan.page d ⟨source.versionRef, pv.scanBound, changes, baseline, accepted.scanEpoch, limit.value⟩
          accepted.pendingCursor.offset (some ⟨accepted.pageRef, accepted.checkpointRef, accepted.sequence⟩) none)

/-! ## A scan -/

/-- The cursor that Control issues for an accepted page, if the page has a next one. -/
def acceptedCursor (p : ChangePage D) (a : AcceptedChangePage D) : Option (ChangeCursor D) :=
  p.nextCursor.map fun pending => ⟨pending, p.scanRef, p.scanEpoch, a.pageRef, a.checkpointRef, a.sequence⟩

/-- The directory is not the Provider's to scan: it has more files than the bound, or the
    curated root does not hold what was scanned before. -/
def Provider.excludes (pv : Provider) (source : FileChangeSource D) (s : Snapshot) : Bool :=
  deniedBySelection pv source || decide (pv.scanBound < s.files.length)

/-- Every page that the Provider proposes from here on is accepted, until the scan is
    complete; each call sees the tables as they are, and a continuation asks for pages of
    the accepted page's limit. Of an excluded directory no page is asked. -/
inductive Completes (s : Snapshot) : Tables D → Option (ChangeCursor D) → ChangeLimit → Prop
  | excluded {t : Tables D} {source : FileChangeSource D} {limit : ChangeLimit} : t.read = some source →
      pv.excludes source s = true → Completes s t none limit
  | last {t t' : Tables D} {source : FileChangeSource D} {cursor : Option (ChangeCursor D)} {limit : ChangeLimit}
      {p : ChangePage D} {a : AcceptedChangePage D} : t.read = some source →
      readChanges d pv source s cursor limit = .ok p → accept d t p = some (t', a) → acceptedCursor p a = none →
      Completes s t cursor limit
  | more {t t' : Tables D} {source : FileChangeSource D} {cursor : Option (ChangeCursor D)} {limit next : ChangeLimit}
      {p : ChangePage D} {a : AcceptedChangePage D} {c : ChangeCursor D} : t.read = some source →
      readChanges d pv source s cursor limit = .ok p → accept d t p = some (t', a) → acceptedCursor p a = some c →
      next.value = p.pageLimit → Completes s t' (some c) next → Completes s t cursor limit

/-- The cursor was issued for a page in the tables. -/
def Issued (t : Tables D) (c : ChangeCursor D) : Prop :=
  ∃ (p : ChangePage D) (r : PageRow D), r ∈ t.pages ∧ r.pageRef = d.page p ∧
    acceptedCursor p ⟨r.pageRef, r.checkpointRef, r.sequence⟩ = some c

/-- Pages of versions before delete observations. -/
structure Legacy (D : Type) (d : Digests D) (activeVersion : UUID) where
  pages : List (PageRow D)
  lastSequence : Nat
  other_version : ∀ r ∈ pages, r.sourceVersionRef ≠ activeVersion ∧ r.binding = none
  digest : ∀ r ∈ pages, ∃ p : ChangePage D, r.pageRef = d.page p ∧ p.sourceVersionRef = r.sourceVersionRef
  epoch_digest : ∀ r ∈ pages, ∃ doc : EpochDocument D, r.scanEpoch = d.epoch doc ∧ doc.sourceVersionRef = r.sourceVersionRef
  initial : ∀ r ∈ pages, ∃ i ∈ pages, i.sourceVersionRef = r.sourceVersionRef ∧ i.scanEpoch = r.scanEpoch ∧
    i.pageOrdinal = 1
  descending : pages.Pairwise fun a b => a.sequence > b.sequence
  bounded : ∀ r ∈ pages, r.sequence ≤ lastSequence

/-- What accepted pages can make of the tables: any Provider may propose the pages, from
    any snapshot, at the start of a scan or at any cursor that was issued. -/
inductive Reachable : Tables D → Prop
  | start (version : UUID) (l : Legacy D d version) : Reachable ⟨version, l.pages, l.lastSequence⟩
  /-- The checkpoint of an import or a tombstone. -/
  | otherCheckpoint {t : Tables D} : Reachable t → Reachable { t with lastSequence := t.lastSequence + 1 }
  | accepted {t t' : Tables D} {source : FileChangeSource D} {pv : Provider} {s : Snapshot}
      {cursor : Option (ChangeCursor D)} {limit : ChangeLimit} {p : ChangePage D} {a : AcceptedChangePage D} :
      Reachable t → t.read = some source → (∀ c, cursor = some c → Issued d t c) →
      readChanges d pv source s cursor limit = .ok p → accept d t p = some (t', a) → Reachable t'

end Provider

end ContextEngine.Adapters.FileSource
