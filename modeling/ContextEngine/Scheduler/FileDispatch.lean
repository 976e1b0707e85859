/-
  ContextEngine.Scheduler.FileDispatch — leases of scheduled File imports: the scheduler's
  claim, which reclaims an expired lease or dispatches a job for the first time, redemption,
  the worker's progress and the acceptance of scan pages (`migrations/versions` 0033, 0034,
  0029 and 0015; `engine/persistence/worker_jobs.py`, `engine/persistence/file_imports.py`).

  Any number of sessions run one function each, in a transaction of its own, at READ
  COMMITTED. A statement sees what is committed by then. A claim locks the row of its job and
  then waits for the lock of the Source's progress, which acceptance and redemption also take;
  both are kept until the transaction ends. An UPDATE waits for a row that it selects and
  another transaction has locked, and `SKIP LOCKED` passes over it.

  A lease is signed after its claim has committed, and its signature is checked before a
  worker redeems it or reports progress under it, so only issued leases are presented. Service
  principals are registered once: nothing in the repository disables one. Sources, versions
  and memberships change at any time. The documents that a worker publishes and the event rows
  of a job are left out, as are the functions that complete or fail a job.
-/

import ContextEngine.Machine.Runs
import ContextEngine.Postgres.Values

namespace ContextEngine.Scheduler

open ContextEngine.Python ContextEngine.Postgres ContextEngine.Runtime

abbrev Bytes := List UInt8

/-- An Organization and a job of it. -/
abbrev JobKey := UUID × UUID

/-- An Organization and a Source of it. -/
abbrev SourceKey := UUID × UUID

def TTL_SECONDS : Nat := 300

def MAX_GENERATION : Nat := 4

def BASE_BACKOFF_SECONDS : Nat := 30

/-! ## Rows -/

inductive JobState where
  | available
  | leased
  | running
  | prepared
  | ready
  deriving DecidableEq

inductive ChangeKind where
  | upsert
  | delete
  deriving DecidableEq

/-- The columns that a claim mints. -/
structure LeaseColumns where
  signingKeyVersion : Nat
  nonceDigest : Bytes
  issuedAt : Timestamp
  expiresAt : Timestamp
  deriving DecidableEq

/-- A row of `file_import_job`, with the acquisition, the change and the schedule that it is for. -/
structure Job where
  sourceId : UUID
  sourceVersionId : UUID
  servicePrincipalId : UUID
  audienceMembershipId : UUID
  audienceMembershipVersion : Int
  changePageRef : Option String
  changeKind : ChangeKind
  changeOrdinal : Nat
  /-- When the import was scheduled, and its place among the Source's checkpoints. -/
  scheduled : Option (Timestamp × Nat)
  state : JobState
  leaseGeneration : Nat
  dispatchClaimed : Bool
  recoveryFromState : Option JobState
  lease : Option LeaseColumns
  leaseRedeemedAt : Option Timestamp
  deriving DecidableEq

/-- A row of `file_source_change_page` whose acceptance is checkpointed. -/
structure AcceptedPage where
  pageRef : String
  sourceVersionId : UUID
  scanEpoch : UUID
  pageOrdinal : Nat
  deriving DecidableEq

structure Version where
  versionId : UUID
  declarationVersion : String
  rootRef : String

structure Source where
  isFile : Bool
  active : Bool
  activeVersionId : UUID
  versions : List Version

structure Membership where
  membershipId : UUID
  membershipVersion : Int
  active : Bool
  validFrom : Timestamp
  validUntil : Option Timestamp

/-- What other functions write. -/
structure Authority where
  sources : SourceKey → Option Source
  memberships : UUID → List Membership
  /-- A row that a claim needs is locked by another transaction. -/
  locked : JobKey → Bool

/-- The claims of a signed lease. -/
structure Lease where
  organizationId : UUID
  jobId : UUID
  sourceId : UUID
  servicePrincipalId : UUID
  leaseGeneration : Nat
  signingKeyVersion : Nat
  nonce : Bytes
  issuedAt : Timestamp
  expiresAt : Timestamp
  deriving DecidableEq

def Lease.key (l : Lease) : JobKey := (l.organizationId, l.jobId)

def Lease.source (l : Lease) : SourceKey := (l.organizationId, l.sourceId)

structure ClaimCall where
  user : Role
  signingKeyVersion : Int
  nonce : Bytes
  configuredRootRefs : List String

/-- `'^[A-Za-z0-9][A-Za-z0-9._-]{0,127}$'`, and not a directory. -/
def isRootRef (ref : String) : Bool :=
  match ref.toList with
  | [] => false
  | c :: cs => (c.isAlphanum) && decide (cs.length ≤ 127) && cs.all fun c => c.isAlphanum || c == '.' || c == '_' || c == '-'

def ClaimCall.wellFormed (c : ClaimCall) : Bool :=
  decide (c.user = .scheduler ∧ 1 ≤ c.signingKeyVersion ∧ c.signingKeyVersion ≤ MAX_BIGINT) && c.nonce.length == 32 &&
    !c.configuredRootRefs.isEmpty && c.configuredRootRefs.all isRootRef && decide c.configuredRootRefs.Nodup

/-! ## Sessions -/

inductive Phase where
  /-- The selection of an expired lease is next. -/
  | claim (c : ClaimCall)
  | selected (c : ClaimCall) (key : JobKey) (state : JobState) (resume : Option JobState) (generation : Nat)
  /-- With the progress lock. -/
  | fenced (c : ClaimCall) (key : JobKey) (state : JobState) (resume : Option JobState) (generation : Nat)
  /-- No lease to reclaim: the selection of an available job is next. -/
  | first (c : ClaimCall)
  | firstSelected (c : ClaimCall) (key : JobKey)
  | firstFenced (c : ClaimCall) (key : JobKey)
  | redeem (l : Lease) (redeemedAt : Timestamp)
  | redeemWaiting (l : Lease) (pageRef : String)
  | redeemFenced (l : Lease) (redeemedAt : Timestamp) (pageRef : String)
  /-- The UPDATE is next. -/
  | redeemUpdate (l : Lease) (redeemedAt : Timestamp)
  | advance (l : Lease) (target : JobState) (now : Timestamp)
  | accept (source : SourceKey) (page : AcceptedPage)
  | accepting (source : SourceKey) (page : AcceptedPage)
  /-- The function returned. -/
  | returned
  | aborted

/-- What a transaction has written. -/
inductive Written where
  | nothing
  | claimed (job : Job) (lease : Lease)
  | redeemed (job : Job) (lease : Lease)
  | advanced (job : Job) (lease : Lease)
  | accepted (source : SourceKey) (page : AcceptedPage)

structure Transaction where
  phase : Phase
  written : Written

structure World where
  clock : Timestamp
  authority : Authority
  jobs : JobKey → Option Job
  /-- The keys of all jobs. -/
  queue : List JobKey
  /-- The accepted pages of each Source, oldest first. -/
  pages : SourceKey → List AcceptedPage
  sessions : Nat → Option Transaction
  rowLocks : JobKey → Option Nat
  progressLocks : SourceKey → Option Nat
  /-- The leases of committed claims. -/
  issued : List Lease

/-! ## Conditions -/

section Conditions

variable (enabled : UUID → UUID → Bool) (digest : Bytes → Bytes)

def sourceKey (key : JobKey) (job : Job) : SourceKey := (key.1, job.sourceId)

/-- The accepted page of a job. -/
def pageOf (pages : List AcceptedPage) (versionId : UUID) (ref : Option String) : Option AcceptedPage :=
  pages.find? fun p => decide (p.sourceVersionId = versionId ∧ some p.pageRef = ref)

/-- The job's page is of the scan epoch of the page accepted last. -/
def currentEpoch (pages : List AcceptedPage) (job : Job) : Bool :=
  (pageOf pages job.sourceVersionId job.changePageRef).any fun p => pages.getLast?.any fun last => p.scanEpoch == last.scanEpoch

def DECLARATIONS : List String := ["file-capabilities-v3", "file-capabilities-v4"]

/-- The Source, its active version and the audience of a job, and the receiver. -/
def Authority.admits (a : Authority) (key : JobKey) (job : Job) (now : Timestamp) : Bool :=
  (a.sources (sourceKey key job)).any (fun s =>
    s.isFile && s.active && s.activeVersionId == job.sourceVersionId &&
      s.versions.any fun v => v.versionId == job.sourceVersionId && DECLARATIONS.contains v.declarationVersion) &&
    ((a.memberships key.1).any fun m =>
      m.membershipId == job.audienceMembershipId && decide (m.membershipVersion = job.audienceMembershipVersion) && m.active &&
        decide (m.validFrom ≤ now) && m.validUntil.all fun t => decide (now < t)) &&
    enabled key.1 job.servicePrincipalId

/-- The active version's root is among those configured. -/
def Authority.activeRoot (a : Authority) (key : JobKey) (job : Job) (roots : List String) : Bool :=
  (a.sources (sourceKey key job)).any fun s =>
    s.versions.any fun v => v.versionId == s.activeVersionId && roots.contains v.rootRef

/-- Some version's root is among those configured. -/
def Authority.anyRoot (a : Authority) (source : SourceKey) (roots : List String) : Bool :=
  (a.sources source).any fun s => s.versions.any fun v => roots.contains v.rootRef

/-- When a lease may be reclaimed. -/
def dueAt (expiresAt : Timestamp) (generation : Nat) : Timestamp :=
  expiresAt + BASE_BACKOFF_SECONDS * 2 ^ (generation - 1) * MICROS

def Job.due (job : Job) (now : Timestamp) : Bool := job.lease.any fun l => decide (dueAt l.expiresAt job.leaseGeneration ≤ now)

def Job.inProgress (job : Job) : Bool := decide (job.state ∈ [.leased, .running, .prepared, .ready])

variable (w : World)

/-- What the selections and their checks share. -/
def World.eligible (key : JobKey) (job : Job) (now : Timestamp) : Bool :=
  job.changePageRef.isSome && decide (job.changeKind = .upsert) && w.authority.admits enabled key job now &&
    currentEpoch (w.pages (sourceKey key job)) job

def World.reclaimable (key : JobKey) (job : Job) : Bool :=
  job.dispatchClaimed && job.inProgress && decide (1 ≤ job.leaseGeneration ∧ job.leaseGeneration ≤ MAX_GENERATION - 1) &&
    job.due w.clock && job.scheduled.isSome && w.eligible enabled key job w.clock

def World.dispatchable (key : JobKey) (job : Job) : Bool :=
  decide (job.state = .available ∧ job.leaseGeneration = 0) && job.scheduled.isSome && w.eligible enabled key job w.clock

/-- The order of the selections, after the time at which a lease is due. -/
def World.rank (due : Job → Nat) (entry : JobKey × Job) : List Nat :=
  [due entry.2, (entry.2.scheduled.map (·.1)).getD 0, (entry.2.scheduled.map (·.2)).getD 0,
    ((pageOf (w.pages (sourceKey entry.1 entry.2)) entry.2.sourceVersionId entry.2.changePageRef).map (·.pageOrdinal)).getD 0,
    entry.2.changeOrdinal, entry.1.1.value, entry.2.sourceId.value, entry.1.2.value]

/-- `ORDER BY … FOR UPDATE OF job SKIP LOCKED LIMIT 1`. -/
def World.select (session : Nat) (condition : JobKey → Job → Bool) (due : Job → Nat) : Option (JobKey × Job) :=
  let entries := w.queue.filterMap fun key => (w.jobs key).map fun job => (key, job)
  let open' := entries.filter fun e => (w.rowLocks e.1).all (· == session) && condition e.1 e.2
  (open'.mergeSort fun a b => decide (w.rank due a ≤ w.rank due b)).head?

/-- The row is under this lease. -/
def Job.under (job : Job) (l : Lease) : Bool :=
  job.servicePrincipalId == l.servicePrincipalId && job.sourceId == l.sourceId && job.leaseGeneration == l.leaseGeneration &&
    decide (job.lease = some ⟨l.signingKeyVersion, digest l.nonce, l.issuedAt, l.expiresAt⟩)

/-- The condition of redemption. -/
def Job.redeemable (job : Job) (l : Lease) (at' : Timestamp) : Bool :=
  decide (job.state = .leased) && job.under digest l && decide (l.issuedAt ≤ at' ∧ at' < l.expiresAt) &&
    enabled l.organizationId job.servicePrincipalId

/-- The state before a target that a worker reports. -/
def before : JobState → Option JobState
  | .prepared => some .running
  | .ready => some .prepared
  | _ => none

def Job.advanceable (job : Job) (l : Lease) (target : JobState) (now : Timestamp) : Bool :=
  decide (before target = some job.state) && job.under digest l && decide (now < l.expiresAt) &&
    enabled l.organizationId job.servicePrincipalId

end Conditions

/-! ## Writes -/

/-- `date_trunc('second', clock)`, with the lease that it starts. -/
def ClaimCall.columns (c : ClaimCall) (digest : Bytes → Bytes) (now : Timestamp) : LeaseColumns :=
  ⟨c.signingKeyVersion.toNat, digest c.nonce, truncSecond now, truncSecond now + TTL_SECONDS * MICROS⟩

def Job.claim (job : Job) (columns : LeaseColumns) (generation : Nat) (resume : Option JobState) : Job :=
  { job with
    state := .leased
    leaseGeneration := generation
    recoveryFromState := resume
    dispatchClaimed := true
    lease := some columns
    leaseRedeemedAt := none }

/-- `COALESCE(recovery_from_state, 'running')`. -/
def Job.redeem (job : Job) (at' : Timestamp) : Job :=
  { job with state := job.recoveryFromState.getD .running, recoveryFromState := none, leaseRedeemedAt := some at' }

/-- The lease that a claim returns. -/
def ClaimCall.lease (c : ClaimCall) (key : JobKey) (job : Job) (generation : Nat) (now : Timestamp) : Lease :=
  ⟨key.1, key.2, job.sourceId, job.servicePrincipalId, generation, c.signingKeyVersion.toNat, c.nonce, truncSecond now,
    truncSecond now + TTL_SECONDS * MICROS⟩

/-! ## Steps -/

inductive Call where
  | setAuthority (authority : Authority)
  | advanceClock (micros : Nat)
  /-- A new job, as scheduling leaves it. -/
  | schedule (key : JobKey) (job : Job)
  | claim (session : Nat) (call : ClaimCall)
  | redeem (session : Nat) (lease : Lease)
  /-- `prepare` and `index`. -/
  | progress (session : Nat) (lease : Lease) (target : JobState)
  | accept (session : Nat) (source : SourceKey) (page : AcceptedPage)
  /-- Run the next statement of the session's function. -/
  | next (session : Nat)
  | commit (session : Nat)
  | rollback (session : Nat)

inductive Reply where
  | nothing
  | claimed (lease : Lease)
  | redeemed (lease : Lease) (state : JobState)
  | advanced (lease : Lease) (state : JobState)
  | accepted (source : SourceKey) (page : AcceptedPage)
  deriving DecidableEq

section Step

variable (enabled : UUID → UUID → Bool) (digest : Bytes → Bytes) (w : World) (session : Nat)

def World.set (txn : Transaction) : World := { w with sessions := Function.update w.sessions session (some txn) }

def World.goto (phase : Phase) : World := w.set session ⟨phase, .nothing⟩

def World.write (written : Written) : World := w.set session ⟨.returned, written⟩

def World.lockRow (key : JobKey) : World := { w with rowLocks := Function.update w.rowLocks key (some session) }

def World.lockProgress (source : SourceKey) : World :=
  { w with progressLocks := Function.update w.progressLocks source (some session) }

def free (holder : Option Nat) : Bool := holder.all (· == session)

def release (holder : Option Nat) : Option Nat := if holder = some session then none else holder

/-- The end of a transaction. -/
def World.close : World :=
  { w with
    sessions := Function.update w.sessions session none
    rowLocks := fun key => release session (w.rowLocks key)
    progressLocks := fun source => release session (w.progressLocks source) }

/-- A function starts in a session that runs none. -/
def World.begin (phase : Phase) : World := if (w.sessions session).isSome then w else w.goto session phase

/-- A job that nobody has claimed. -/
def Job.fresh (job : Job) : Bool :=
  decide (job.state = .available ∧ job.leaseGeneration = 0 ∧ job.recoveryFromState = none ∧ job.lease = none)

def schedule (key : JobKey) (job : Job) : World :=
  if (w.jobs key).isNone && job.fresh then
    { w with jobs := Function.update w.jobs key (some job), queue := w.queue ++ [key] }
  else w

/-- The selection of an expired lease; without one, of an available job. -/
def claimStart (c : ClaimCall) : World :=
  match w.select session (w.reclaimable enabled) (fun job => (job.lease.map fun l => dueAt l.expiresAt job.leaseGeneration).getD 0) with
  | some (key, job) =>
    (w.lockRow session key).goto session (.selected c key job.state job.recoveryFromState job.leaseGeneration)
  | none => w.goto session (.first c)

def firstStart (c : ClaimCall) : World :=
  match w.select session (w.dispatchable enabled) (fun _ => 0) with
  | some (key, _) => (w.lockRow session key).goto session (.firstSelected c key)
  | none => w.write session .nothing

/-- The roots are checked, and then the progress lock is waited for. -/
def claimFence (c : ClaimCall) (key : JobKey) (phase : Phase) : World :=
  match w.jobs key with
  | some job =>
    if w.authority.anyRoot (sourceKey key job) c.configuredRootRefs then
      if free session (w.progressLocks (sourceKey key job)) then (w.lockProgress session (sourceKey key job)).goto session phase
      else w
    else w.write session .nothing
  | none => w.write session .nothing

/-- The job is checked again, and claimed. -/
def reclaim (c : ClaimCall) (key : JobKey) (state : JobState) (resume : Option JobState) (generation : Nat) : World :=
  match w.jobs key with
  | some job =>
    if decide (job.state = state ∧ job.recoveryFromState = resume ∧ job.leaseGeneration = generation) && job.dispatchClaimed &&
        job.due w.clock && w.eligible enabled key job w.clock && w.authority.activeRoot key job c.configuredRootRefs &&
        !w.authority.locked key then
      let resume := if state = .leased then resume else some state
      w.write session (.claimed (job.claim (c.columns digest w.clock) (generation + 1) resume)
        (c.lease key job (generation + 1) w.clock))
    else w.write session .nothing
  | none => w.write session .nothing

def dispatchFirst (c : ClaimCall) (key : JobKey) : World :=
  match w.jobs key with
  | some job =>
    if w.dispatchable enabled key job && w.authority.activeRoot key job c.configuredRootRefs && !w.authority.locked key then
      w.write session (.claimed (job.claim (c.columns digest w.clock) 1 job.recoveryFromState) (c.lease key job 1 w.clock))
    else w.write session .nothing
  | none => w.write session .nothing

/-- The page of the acquisition, when the lease can be redeemed now. -/
def redeemStart (l : Lease) (at' : Timestamp) : World :=
  match w.jobs l.key with
  | some job =>
    if job.redeemable enabled digest l at' then
      match job.changePageRef with
      | some ref => w.goto session (.redeemWaiting l ref)
      | none => w.goto session (.redeemUpdate l at')
    else w.goto session (.redeemUpdate l at')
  | none => w.goto session (.redeemUpdate l at')

def redeemFence (l : Lease) (ref : String) : World :=
  if free session (w.progressLocks l.source) then (w.lockProgress session l.source).goto session (.redeemFenced l w.clock ref)
  else w

def redeemCheck (l : Lease) (at' : Timestamp) (ref : String) : World :=
  match w.jobs l.key with
  | some job =>
    if decide (job.sourceId = l.sourceId ∧ job.changePageRef = some ref) && currentEpoch (w.pages l.source) job then
      w.goto session (.redeemUpdate l at')
    else w.goto session .aborted
  | none => w.goto session .aborted

def redeemUpdate (l : Lease) (at' : Timestamp) : World :=
  match w.jobs l.key with
  | some job =>
    if job.redeemable enabled digest l at' then
      if free session (w.rowLocks l.key) then (w.lockRow session l.key).write session (.redeemed (job.redeem at') l)
      else w
    else w.write session .nothing
  | none => w.write session .nothing

def progressUpdate (l : Lease) (target : JobState) (now : Timestamp) : World :=
  match w.jobs l.key with
  | some job =>
    if job.advanceable enabled digest l target now then
      if free session (w.rowLocks l.key) then (w.lockRow session l.key).write session (.advanced { job with state := target } l)
      else w
    else w.write session .nothing
  | none => w.write session .nothing

def acceptFence (source : SourceKey) (page : AcceptedPage) : World :=
  if free session (w.progressLocks source) then (w.lockProgress session source).goto session (.accepting source page) else w

def next : World :=
  match w.sessions session with
  | some txn =>
    match txn.phase with
    | .claim c => claimStart enabled w session c
    | .selected c key state resume generation => claimFence w session c key (.fenced c key state resume generation)
    | .fenced c key state resume generation => reclaim enabled digest w session c key state resume generation
    | .first c => firstStart enabled w session c
    | .firstSelected c key => claimFence w session c key (.firstFenced c key)
    | .firstFenced c key => dispatchFirst enabled digest w session c key
    | .redeem l at' => redeemStart enabled digest w session l at'
    | .redeemWaiting l ref => redeemFence w session l ref
    | .redeemFenced l at' ref => redeemCheck w session l at' ref
    | .redeemUpdate l at' => redeemUpdate enabled digest w session l at'
    | .advance l target now => progressUpdate enabled digest w session l target now
    | .accept source page => acceptFence w session source page
    | .accepting source page => w.write session (.accepted source page)
    | .returned => w
    | .aborted => w
  | none => w

/-- A transaction commits when its function has returned; a failed one is rolled back. -/
def commit : World × Reply :=
  match w.sessions session with
  | some txn =>
    match txn.phase with
    | .returned =>
      let closed := w.close session
      match txn.written with
      | .nothing => (closed, .nothing)
      | .claimed job lease =>
        ({ closed with jobs := Function.update w.jobs lease.key (some job), issued := w.issued ++ [lease] }, .claimed lease)
      | .redeemed job lease =>
        ({ closed with jobs := Function.update w.jobs lease.key (some job) }, .redeemed lease job.state)
      | .advanced job lease =>
        ({ closed with jobs := Function.update w.jobs lease.key (some job) }, .advanced lease job.state)
      | .accepted source page =>
        ({ closed with pages := Function.update w.pages source (w.pages source ++ [page]) }, .accepted source page)
    | .aborted => (w.close session, .nothing)
    | _ => (w, .nothing)
  | none => (w, .nothing)

end Step

def step (enabled : UUID → UUID → Bool) (digest : Bytes → Bytes) (w : World) : Call → World × Reply
  | .setAuthority authority => ({ w with authority := authority }, .nothing)
  | .advanceClock micros => ({ w with clock := w.clock + micros }, .nothing)
  | .schedule key job => (schedule w key job, .nothing)
  | .claim session c => (if c.wellFormed then w.begin session (.claim c) else w, .nothing)
  | .redeem session l => (if l ∈ w.issued then w.begin session (.redeem l w.clock) else w, .nothing)
  | .progress session l target => (if l ∈ w.issued then w.begin session (.advance l target w.clock) else w, .nothing)
  | .accept session source page => (w.begin session (.accept source page), .nothing)
  | .next session => (next enabled digest w session, .nothing)
  | .commit session => commit w session
  | .rollback session => (w.close session, .nothing)

/-- No job yet, and nothing running. -/
structure World.Fresh (w : World) : Prop where
  jobs : ∀ key, w.jobs key = none
  sessions : ∀ i, w.sessions i = none
  rowLocks : ∀ key, w.rowLocks key = none
  progressLocks : ∀ source, w.progressLocks source = none
  issued : w.issued = []

end ContextEngine.Scheduler
