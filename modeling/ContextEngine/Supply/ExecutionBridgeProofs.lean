/-
  ContextEngine.Supply.ExecutionBridgeProofs — the bridge's progress against the database's.

  Proved: a run of the bridge ends within its page limit and keeps to its bounds; its
  checkpoint is the durable one at every moment, its result is the job's, and a crash resumes
  after the last accepted page, exactly when no accepted page repeats the reference of one
  that the job had accepted before with another checkpoint.
-/

import ContextEngine.Python.Hashlib
import ContextEngine.Supply.ConnectorLeaseProofs
import ContextEngine.Supply.ExecutionBridge

namespace ContextEngine.Supply

open ContextEngine.Machine ContextEngine.Python ContextEngine.Postgres ContextEngine.Runtime

variable {server : Server} {w w' : World}

/-- The checkpoint that a redemption returns. -/
def World.durable (w : World) : Option (List UInt8) := w.checkpoint.map (·.opaqueCheckpoint)

/-- The job accepted a page under this reference before. -/
def Repeats (w : World) (page : SupplyChangePage) : Prop := ∃ p ∈ w.acceptedPages, p.pageRef = page.pageRef

/-! ## What an acceptance makes durable -/

/-- Staging reads the proposal and the flag from the payload's document. -/
theorem stage_reads {b : PageBinding} {pageRef : String} {payload : List UInt8} {epoch : Option Nat} {now : Timestamp} {s : Staged}
    (h : stage server b pageRef payload epoch now = some s) :
    ∃ document, server.parseJsonb payload = some document ∧ document.get "terminal" = some (.bool s.terminal) ∧
      (server.text (document.get "checkpoint_proposal")).bind server.decodeBase64 = some s.checkpoint := by
  simp only [stage, Option.bind_eq_bind, Option.bind_eq_some_iff, Option.guard_eq_some', exists_const] at h
  obtain ⟨-, -, document, hparse, -, -, -, -, -, -, -, -, -, h⟩ := h
  refine ⟨document, hparse, ?_⟩
  split at h
  · rename_i terminal hterminal
    simp only [Option.bind_eq_some_iff, Option.guard_eq_some', exists_const, Option.some.injEq] at h
    obtain ⟨checkpoint, hcheckpoint, -, rfl⟩ := h
    exact ⟨hterminal, Option.bind_eq_some_iff.mpr hcheckpoint⟩
  · cases h

/-- An acceptance acknowledges a reference that it has, or moves to the staged checkpoint. -/
theorem accept_cases {c : LeaseClaims} {pageRef : String} {payload : List UInt8} {ordinal : Nat}
    (h : accept server w c pageRef payload = some (ordinal, w')) :
    ∃ b epoch s, stage server b pageRef payload epoch w.clock = some s ∧ w.job.state = .running ∧
      ((∃ p ∈ w.acceptedPages, p.pageRef = pageRef) ∧ w'.durable = w.durable ∧ w'.job = w.job ∨
        (¬∃ p ∈ w.acceptedPages, p.pageRef = pageRef) ∧ w'.durable = some s.checkpoint ∧
          w'.job.state = if s.terminal then .completed else .running) := by
  simp only [accept, Option.bind_eq_bind, Option.bind_eq_some_iff, Option.guard_eq_some', exists_const] at h
  obtain ⟨-, organizationId, -, sourceVersionId, -, workerJobId, -, s, hs, -, hstate, -, -, h⟩ := h
  refine ⟨_, _, s, hs, hstate, ?_⟩
  split at h
  · rename_i page hpage
    simp only [Option.bind_eq_some_iff, Option.guard_eq_some', exists_const, Option.some.injEq, Prod.mk.injEq] at h
    obtain ⟨-, -, rfl⟩ := h
    have href := List.find?_some hpage
    simp only [decide_eq_true_eq] at href
    exact .inl ⟨⟨page, List.mem_of_find?_eq_some hpage, href⟩, rfl, rfl⟩
  · rename_i hnone
    simp only [Option.bind_eq_some_iff, Option.guard_eq_some', exists_const, Option.some.injEq, Prod.mk.injEq] at h
    obtain ⟨-, -, -, rfl⟩ := h
    refine .inr ⟨?_, rfl, rfl⟩
    rintro ⟨p, hp, href⟩
    have := List.find?_eq_none.mp hnone p hp
    simp [href] at this

/-- The same, for a page that the server reads back. -/
theorem accept_page {c : LeaseClaims} {page : SupplyChangePage} {payload : List UInt8} {ordinal : Nat}
    (hreads : ReadsBack server page) (hpayload : serializeSupplyChangePage page = some payload)
    (h : accept server w c page.pageRef payload = some (ordinal, w')) :
    w.job.state = .running ∧
      (Repeats w page ∧ w'.durable = w.durable ∧ w'.job = w.job ∨
        ¬Repeats w page ∧ w'.durable = some page.checkpointProposal ∧
          w'.job.state = if page.terminal then .completed else .running) := by
  obtain ⟨b, epoch, s, hs, hstate, hcases⟩ := accept_cases h
  obtain ⟨document, hparse, hterminal, hcheckpoint⟩ := stage_reads hs
  obtain ⟨hproposal, hflag⟩ := hreads payload document hpayload hparse
  have hcp : s.checkpoint = page.checkpointProposal := Option.some.inj (hcheckpoint.symm.trans hproposal)
  have hfl : s.terminal = page.terminal := by
    have := hterminal.symm.trans hflag
    simpa using this
  rw [hcp, hfl] at hcases
  exact ⟨hstate, hcases⟩

/-- An operator's step leaves the durable checkpoint, and completes nothing. -/
theorem operator_step {call : Call} (h : call.byOperator = true) :
    (step server w call).1.durable = w.durable ∧
      (w.job.state ≠ .completed → (step server w call).1.job.state ≠ .completed) := by
  have hissue : ∀ {r : IssueRequest} {row : LeaseRow} {w' : World}, issue server w r = some (row, w') →
      w'.durable = w.durable ∧ w'.job.state ≠ .completed := by
    intro r row w' h
    obtain ⟨-, -, -, -, -, -, rfl⟩ := issue_eq_some.mp h
    exact ⟨rfl, by simp [reissued]⟩
  cases call with
  | issue r =>
    rw [step]
    rcases hr : issue server w r with _ | ⟨row, w'⟩
    · exact ⟨rfl, id⟩
    · exact ⟨(hissue hr).1, fun _ => (hissue hr).2⟩
  | preempt r reason =>
    rw [step]
    rcases hr : preempt server w r reason with _ | ⟨row, w'⟩
    · exact ⟨rfl, id⟩
    · obtain ⟨-, -, -, -, events, rfl⟩ := preempt_eq_some hr
      exact ⟨rfl, fun _ => by simp [answer, reissued]⟩
  | redeem c => cases h
  | accept c pageRef payload => cases h
  | advanceClock micros => exact ⟨rfl, id⟩
  | advanceEpoch by' => exact ⟨rfl, id⟩
  | setPrincipal enabled => exact ⟨rfl, id⟩
  | setSource activeVersionId active => exact ⟨rfl, id⟩

theorem operators_run (calls : List { call : Call // call.byOperator = true }) :
    (after (step server) w (calls.map (·.1))).durable = w.durable ∧
      (w.job.state ≠ .completed → (after (step server) w (calls.map (·.1))).job.state ≠ .completed) := by
  induction calls generalizing w with
  | nil => exact ⟨rfl, id⟩
  | cons call calls ih =>
    have hstep := @operator_step server w call.1 call.2
    have hrest := @ih (step server w call.1).1
    exact ⟨hrest.1.trans hstep.1, fun h => hrest.2 (hstep.2 h)⟩

/-! ## Rounds -/

section Rounds

variable {α ε : Type} {configuration : SupplyExecutionConfiguration} {operators : Operators} {adapter : ConnectorAdapter α ε}
  {binding : PageBinding} {claims : LeaseClaims} {s : Loop α}

/-- An acceptance of the round that begins at `s`. -/
structure Accepts (server : Server) (configuration : SupplyExecutionConfiguration) (operators : Operators)
    (adapter : ConnectorAdapter α ε) (claims : LeaseClaims) (s : Loop α) (a : Acceptance) : Prop where
  count : s.acceptedPageCount < configuration.pageLimit
  asked : a.asked = s.checkpoint
  emitted : adapter.Emits a.page
  payload : serializeSupplyChangePage a.page = some a.payload
  bytes : s.acceptedByteCount + a.payload.length ≤ configuration.cumulativeByteLimit
  progress : a.page.madeNoProgress s.checkpoint = true → s.consecutiveNoProgressPages < configuration.noProgressPageLimit
  before : a.before = after (step server) s.world ((operators s.acceptedPageCount).map (·.1))
  accepted : ∃ ordinal, accept server a.before claims a.page.pageRef a.payload = some (ordinal, a.after)

/-- The head of the next round. -/
structure Continues (s : Loop α) (a : Acceptance) (next : Loop α) : Prop where
  open' : a.page.terminal = false
  world : next.world = a.after
  checkpoint : next.checkpoint = some a.page.checkpointProposal
  count : next.acceptedPageCount = s.acceptedPageCount + 1
  bytes : next.acceptedByteCount = s.acceptedByteCount + a.payload.length
  stalled : next.consecutiveNoProgressPages = if a.page.madeNoProgress s.checkpoint then s.consecutiveNoProgressPages + 1 else 0

/-- Everything a round can do. -/
inductive RoundEffect (server : Server) (configuration : SupplyExecutionConfiguration) (operators : Operators)
    (adapter : ConnectorAdapter α ε) (claims : LeaseClaims) (s : Loop α) : Round α ε → Prop where
  | raises {failure : Failure ε} {w : World} (calls : List { call : Call // call.byOperator = true })
      (world : w = after (step server) s.world (calls.map (·.1))) :
    RoundEffect server configuration operators adapter claims s (.raises failure w)
  | returns {a : Acceptance} {refs : List String} (accepts : Accepts server configuration operators adapter claims s a)
      (terminal : a.page.terminal = true) : RoundEffect server configuration operators adapter claims s (.returns a refs)
  | continues {a : Acceptance} {next : Loop α} (accepts : Accepts server configuration operators adapter claims s a)
      (continues : Continues s a next) : RoundEffect server configuration operators adapter claims s (.continues a next)

theorem nextPage_emits {page : SupplyChangePage} {a : α} (h : nextPage adapter binding s = .ok (page, a)) : adapter.Emits page := by
  simp only [nextPage, bind, Except.bind] at h
  split at h
  · cases h
  · rename_i a' _
    split_ifs at h with hnone
    · exact ⟨binding, a', a, .inl h⟩
    · exact ⟨binding, a', a, .inr h⟩

theorem round_effect (server : Server) (configuration : SupplyExecutionConfiguration) (operators : Operators)
    (adapter : ConnectorAdapter α ε) (binding : PageBinding) (claims : LeaseClaims) (s : Loop α) :
    RoundEffect server configuration operators adapter claims s
      (round server configuration operators adapter binding claims s) := by
  have hidle : ∀ failure : Failure ε, RoundEffect server configuration operators adapter claims s (.raises failure s.world) :=
    fun _ => .raises [] rfl
  rw [round]
  by_cases hcount : configuration.pageLimit ≤ s.acceptedPageCount
  · rw [if_pos hcount]
    exact hidle _
  rw [if_neg hcount]
  cases hpage : nextPage adapter binding s with
  | error raised => exact hidle _
  | ok result =>
    obtain ⟨page, a⟩ := result
    simp only
    by_cases hbinding : page.binding ≠ binding
    · rw [if_pos hbinding]
      exact hidle _
    rw [if_neg hbinding]
    cases hpayload : serializeSupplyChangePage page with
    | none => exact hidle _
    | some payload =>
      simp only
      split_ifs with hbytes hprogress
      · exact hidle _
      · exact hidle _
      rw [acceptPage]
      simp only
      cases haccept : accept server (after (step server) s.world ((operators s.acceptedPageCount).map (·.1))) claims page.pageRef
          payload with
      | none => exact .raises _ rfl
      | some result =>
        have haccepts : Accepts server configuration operators adapter claims s
            ⟨s.checkpoint, page, payload, after (step server) s.world ((operators s.acceptedPageCount).map (·.1)), result.2⟩ :=
          ⟨Nat.not_le.mp hcount, rfl, nextPage_emits hpage, hpayload, Nat.not_lt.mp hbytes,
            fun h => Nat.not_le.mp fun hle => hprogress ⟨h, hle⟩, rfl, ⟨result.1, haccept⟩⟩
        simp only
        by_cases hterminal : page.terminal = true
        · rw [if_pos hterminal]
          exact .returns haccepts hterminal
        · rw [if_neg hterminal]
          exact .continues haccepts ⟨by simpa using hterminal, rfl, rfl, rfl, rfl, rfl⟩

/-! ## Runs -/

/-- A run of the loop from `s`, round by round. -/
inductive Unfolds (server : Server) (configuration : SupplyExecutionConfiguration) (operators : Operators)
    (adapter : ConnectorAdapter α ε) (claims : LeaseClaims) : Loop α → Run α ε → Prop where
  | raises {s : Loop α} {failure : Failure ε} (calls : List { call : Call // call.byOperator = true }) :
    Unfolds server configuration operators adapter claims s
      ⟨[s], [], .error failure, after (step server) s.world (calls.map (·.1))⟩
  | returns {s : Loop α} {a : Acceptance} {refs : List String}
      (accepts : Accepts server configuration operators adapter claims s a) (terminal : a.page.terminal = true) :
    Unfolds server configuration operators adapter claims s ⟨[s], [a], .ok refs, a.after⟩
  | continues {s next : Loop α} {a : Acceptance} {run : Run α ε}
      (accepts : Accepts server configuration operators adapter claims s a) (continues : Continues s a next)
      (rest : Unfolds server configuration operators adapter claims next run) :
    Unfolds server configuration operators adapter claims s
      { run with heads := s :: run.heads, acceptances := a :: run.acceptances }

theorem loop_unfolds {fuel : Nat} {run : Run α ε}
    (h : loop server configuration operators adapter binding claims fuel s = some run) :
    Unfolds server configuration operators adapter claims s run := by
  induction fuel generalizing s run with
  | zero => cases h
  | succ fuel ih =>
    have heffect := round_effect server configuration operators adapter binding claims s
    rw [loop] at h
    cases hround : round server configuration operators adapter binding claims s with
    | raises failure w =>
      rw [hround] at h heffect
      cases h
      obtain ⟨calls, rfl⟩ := heffect
      exact .raises calls
    | returns a refs =>
      rw [hround] at h heffect
      cases h
      cases heffect with
      | returns accepts terminal => exact .returns accepts terminal
    | continues a next =>
      rw [hround] at h heffect
      obtain ⟨run, hrun, rfl⟩ := Option.map_eq_some_iff.mp h
      cases heffect with
      | continues accepts continues => exact .continues accepts continues (ih hrun)

theorem loop_continues {fuel : Nat} {a : Acceptance} {next : Loop α} {run : Run α ε}
    (hround : round server configuration operators adapter binding claims s = .continues a next)
    (hrun : loop server configuration operators adapter binding claims fuel next = some run) :
    loop server configuration operators adapter binding claims (fuel + 1) s =
      some { run with heads := s :: run.heads, acceptances := a :: run.acceptances } := by
  rw [loop, hround]
  simp only [hrun, Option.map_some]

/-- The page limit stops the loop before the fuel does. -/
theorem loop_ends {fuel : Nat} (hcount : s.acceptedPageCount ≤ configuration.pageLimit)
    (hfuel : configuration.pageLimit < s.acceptedPageCount + fuel) :
    ∃ run, loop server configuration operators adapter binding claims fuel s = some run := by
  induction fuel generalizing s with
  | zero => omega
  | succ fuel ih =>
    have heffect := round_effect server configuration operators adapter binding claims s
    cases hround : round server configuration operators adapter binding claims s with
    | raises failure w => exact ⟨_, by rw [loop, hround]⟩
    | returns a refs => exact ⟨_, by rw [loop, hround]⟩
    | continues a next =>
      rw [hround] at heffect
      cases heffect with
      | continues accepts continues =>
        have hlt := accepts.count
        have hnext := continues.count
        obtain ⟨run, hrun⟩ := @ih next (by omega) (by omega)
        exact ⟨_, loop_continues hround hrun⟩

/-- The checkpoint after these acceptances, from `c` on. -/
def lastProposal (c : Option (List UInt8)) (acceptances : List Acceptance) : Option (List UInt8) :=
  acceptances.foldl (fun _ a => some a.page.checkpointProposal) c

theorem lastProposal_take {c : Option (List UInt8)} {acceptances : List Acceptance} {i : Nat} {a : Acceptance}
    (h : acceptances[i]? = some a) : lastProposal c (acceptances.take (i + 1)) = some a.page.checkpointProposal := by
  rw [lastProposal, List.take_add_one, h, List.foldl_append]
  rfl

variable {run : Run α ε}

/-! ### Bounds -/

theorem Unfolds.pages (h : Unfolds server configuration operators adapter claims s run)
    (hs : s.acceptedPageCount ≤ configuration.pageLimit) :
    s.acceptedPageCount + run.acceptances.length ≤ configuration.pageLimit := by
  induction h with
  | raises calls => simpa using hs
  | returns accepts => exact accepts.count
  | @continues s next a run accepts continues rest ih =>
    have hnext := ih (by rw [continues.count]; exact accepts.count)
    rw [continues.count] at hnext
    simp only [List.length_cons]
    omega

theorem Unfolds.bytes (h : Unfolds server configuration operators adapter claims s run)
    (hs : s.acceptedByteCount ≤ configuration.cumulativeByteLimit) :
    s.acceptedByteCount + (run.acceptances.map (·.payload.length)).sum ≤ configuration.cumulativeByteLimit := by
  induction h with
  | raises calls => simpa using hs
  | returns accepts => simpa using accepts.bytes
  | @continues s next a run accepts continues rest ih =>
    have hnext := ih (by rw [continues.bytes]; exact accepts.bytes)
    rw [continues.bytes] at hnext
    simp only [List.map_cons, List.sum_cons]
    omega

/-- Only pages that made no progress. -/
def Stalled (block : List Acceptance) : Prop := ∀ a ∈ block, a.page.madeNoProgress a.asked = true

/-- The pages without progress that the run begins with continue those before it. -/
theorem Unfolds.stalled_front (h : Unfolds server configuration operators adapter claims s run) {block : List Acceptance}
    (hs : s.consecutiveNoProgressPages ≤ configuration.noProgressPageLimit)
    (hstart : block <+: run.acceptances) (hstalled : Stalled block) :
    s.consecutiveNoProgressPages + block.length ≤ configuration.noProgressPageLimit := by
  induction h generalizing block with
  | raises calls =>
    rw [List.prefix_nil.mp hstart]
    simpa using hs
  | @returns s a refs accepts terminal =>
    cases block with
    | nil => simpa using hs
    | cons b block =>
      obtain ⟨rfl, -⟩ := List.cons_prefix_cons.mp hstart
      have := hstalled b List.mem_cons_self
      simp [SupplyChangePage.madeNoProgress, terminal] at this
  | @continues s next a run accepts continues rest ih =>
    cases block with
    | nil => simpa using hs
    | cons b block =>
      obtain ⟨rfl, hrest⟩ := List.cons_prefix_cons.mp hstart
      have hb := hstalled b List.mem_cons_self
      rw [accepts.asked] at hb
      have hlt := accepts.progress hb
      have hcount : next.consecutiveNoProgressPages = s.consecutiveNoProgressPages + 1 := by rw [continues.stalled, if_pos hb]
      have := ih (by omega) hrest fun x hx => hstalled x (List.mem_cons_of_mem _ hx)
      simp only [List.length_cons]
      omega

theorem Unfolds.stalled (h : Unfolds server configuration operators adapter claims s run) {block : List Acceptance}
    (hs : s.consecutiveNoProgressPages ≤ configuration.noProgressPageLimit)
    (hwithin : block <:+: run.acceptances) (hstalled : Stalled block) : block.length ≤ configuration.noProgressPageLimit := by
  induction h with
  | raises calls =>
    rw [List.infix_nil.mp hwithin]
    exact Nat.zero_le _
  | @returns s a refs accepts terminal =>
    have hrun : Unfolds server configuration operators adapter claims s ⟨[s], [a], .ok refs, a.after⟩ := .returns accepts terminal
    rcases List.infix_cons_iff.mp hwithin with hp | hp
    · have := hrun.stalled_front hs hp hstalled
      omega
    · rw [List.infix_nil.mp hp]
      exact Nat.zero_le _
  | @continues s next a run accepts continues rest ih =>
    rcases List.infix_cons_iff.mp hwithin with hp | hp
    · have := (Unfolds.continues accepts continues rest).stalled_front hs hp hstalled
      omega
    · refine ih ?_ hp
      rw [continues.stalled]
      by_cases hb : a.page.madeNoProgress s.checkpoint = true
      · rw [if_pos hb]
        exact accepts.progress hb
      · rw [if_neg hb]
        exact Nat.zero_le _

/-! ### Checkpoints -/

/-- The acceptance moves the database where it moves the loop. -/
def Acceptance.Moves (a : Acceptance) : Prop :=
  Repeats a.before a.page → a.before.durable = some a.page.checkpointProposal ∧ a.page.terminal = false

theorem Accepts.effect {a : Acceptance} (h : Accepts server configuration operators adapter claims s a)
    (hreads : ∀ page, adapter.Emits page → ReadsBack server page) :
    a.before.job.state = .running ∧
      (Repeats a.before a.page ∧ a.after.durable = a.before.durable ∧ a.after.job = a.before.job ∨
        ¬Repeats a.before a.page ∧ a.after.durable = some a.page.checkpointProposal ∧
          a.after.job.state = if a.page.terminal then .completed else .running) := by
  obtain ⟨ordinal, haccept⟩ := h.accepted
  exact accept_page (hreads a.page h.emitted) h.payload haccept

theorem Accepts.before_durable {a : Acceptance} (h : Accepts server configuration operators adapter claims s a) :
    a.before.durable = s.world.durable := by
  rw [h.before]
  exact (operators_run _).1

theorem Accepts.moves {a : Acceptance} (h : Accepts server configuration operators adapter claims s a)
    (hreads : ∀ page, adapter.Emits page → ReadsBack server page) (hmoves : a.Moves) :
    a.after.durable = some a.page.checkpointProposal ∧ a.after.job.state = if a.page.terminal then .completed else .running := by
  obtain ⟨hstate, ⟨hrepeats, hdurable, hjob⟩ | ⟨-, hdurable, hjob⟩⟩ := h.effect hreads
  · obtain ⟨hproposal, hopen⟩ := hmoves hrepeats
    exact ⟨hdurable.trans hproposal, by rw [hjob, hstate, hopen]; rfl⟩
  · exact ⟨hdurable, hjob⟩

/-- The adapter is asked from the last accepted page's proposal. -/
theorem Unfolds.asked (h : Unfolds server configuration operators adapter claims s run) {i : Nat} {t : Loop α}
    (ht : run.heads[i]? = some t) : t.checkpoint = lastProposal s.checkpoint (run.acceptances.take i) := by
  induction h generalizing i with
  | raises calls =>
    obtain ⟨rfl, rfl⟩ : i = 0 ∧ _ := by simpa [List.getElem?_singleton] using ht
    rfl
  | returns accepts terminal =>
    obtain ⟨rfl, rfl⟩ : i = 0 ∧ _ := by simpa [List.getElem?_singleton] using ht
    rfl
  | @continues s next a run accepts continues rest ih =>
    cases i with
    | zero =>
      cases ht
      rfl
    | succ i =>
      have := ih ht
      rwa [continues.checkpoint] at this

/-- Where every acceptance moves the database, its checkpoint is the loop's throughout. -/
structure Tracks (c : Option (List UInt8)) (run : Run α ε) : Prop where
  heads : ∀ i t, run.heads[i]? = some t → t.world.durable = lastProposal c (run.acceptances.take i)
  before : ∀ i a, run.acceptances[i]? = some a → a.before.durable = lastProposal c (run.acceptances.take i)
  after : ∀ (i : Nat) (a : Acceptance), run.acceptances[i]? = some a → a.after.durable = some a.page.checkpointProposal
  world : run.world.durable = lastProposal c run.acceptances

theorem Unfolds.tracks (h : Unfolds server configuration operators adapter claims s run)
    (hreads : ∀ page, adapter.Emits page → ReadsBack server page) (hs : s.world.durable = s.checkpoint)
    (hmoves : ∀ a ∈ run.acceptances, a.Moves) : Tracks s.checkpoint run := by
  induction h with
  | @raises s failure calls =>
    refine ⟨?_, by simp, by simp, (operators_run calls).1.trans hs⟩
    intro i t ht
    obtain ⟨rfl, rfl⟩ : i = 0 ∧ _ := by simpa [List.getElem?_singleton] using ht
    exact hs
  | @returns s a refs accepts terminal =>
    have hafter := (accepts.moves hreads (hmoves a List.mem_cons_self)).1
    refine ⟨?_, ?_, ?_, hafter⟩
    · intro i t ht
      obtain ⟨rfl, rfl⟩ : i = 0 ∧ _ := by simpa [List.getElem?_singleton] using ht
      exact hs
    · intro i b hb
      obtain ⟨rfl, rfl⟩ : i = 0 ∧ _ := by simpa [List.getElem?_singleton] using hb
      exact accepts.before_durable.trans hs
    · intro i b hb
      obtain ⟨rfl, rfl⟩ : i = 0 ∧ _ := by simpa [List.getElem?_singleton] using hb
      exact hafter
  | @continues s next a run accepts continues rest ih =>
    have hafter := (accepts.moves hreads (hmoves a List.mem_cons_self)).1
    have hnext : next.world.durable = next.checkpoint := by rw [continues.world, continues.checkpoint, hafter]
    have hrest := ih hnext fun b hb => hmoves b (List.mem_cons_of_mem _ hb)
    rw [continues.checkpoint] at hrest
    refine ⟨?_, ?_, ?_, hrest.world⟩
    · rintro (_ | i) t ht
      · cases ht
        exact hs
      · exact hrest.heads i t ht
    · rintro (_ | i) b hb
      · cases hb
        exact accepts.before_durable.trans hs
      · exact hrest.before i b hb
    · rintro (_ | i) b hb
      · cases hb
        exact hafter
      · exact hrest.after i b hb

/-- And its result is the job's. -/
theorem Unfolds.completes (h : Unfolds server configuration operators adapter claims s run)
    (hreads : ∀ page, adapter.Emits page → ReadsBack server page) (hs : s.world.job.state ≠ .completed)
    (hmoves : ∀ a ∈ run.acceptances, a.Moves) : (∃ refs, run.result = .ok refs) ↔ run.world.job.state = .completed := by
  induction h with
  | raises calls =>
    constructor
    · rintro ⟨refs, h⟩
      cases h
    · intro h
      exact absurd h ((operators_run calls).2 hs)
  | returns accepts terminal =>
    have hstate := (accepts.moves hreads (hmoves _ List.mem_cons_self)).2
    rw [if_pos terminal] at hstate
    simp [hstate]
  | @continues s next a run accepts continues rest ih =>
    have hstate := (accepts.moves hreads (hmoves a List.mem_cons_self)).2
    rw [continues.open'] at hstate
    exact ih (by rw [continues.world, hstate]; decide) fun b hb => hmoves b (List.mem_cons_of_mem _ hb)

/-- Each acceptance comes from a round; a terminal one ends the run. -/
theorem Unfolds.accepts (h : Unfolds server configuration operators adapter claims s run) {a : Acceptance}
    (ha : a ∈ run.acceptances) : (∃ t, Accepts server configuration operators adapter claims t a) ∧
      (a.page.terminal = true → (∃ refs, run.result = .ok refs) ∧ run.world = a.after) := by
  induction h with
  | raises calls => cases ha
  | @returns s b refs accepts terminal =>
    cases List.mem_singleton.mp ha
    exact ⟨⟨s, accepts⟩, fun _ => ⟨⟨refs, rfl⟩, rfl⟩⟩
  | @continues s next b run accepts continues rest ih =>
    rcases List.mem_cons.mp ha with rfl | ha
    · exact ⟨⟨s, accepts⟩, fun h => by rw [continues.open'] at h; cases h⟩
    · exact ih ha

/-! ## The bridge's progress -/

/-- A state of the database during the run, after its first `i` acceptances. -/
inductive Run.At (server : Server) (run : Run α ε) : Nat → World → Prop where
  | head {i : Nat} {t : Loop α} (h : run.heads[i]? = some t) : run.At server i t.world
  | before {i : Nat} {a : Acceptance} (h : run.acceptances[i]? = some a) : run.At server i a.before
  | after {i : Nat} {a : Acceptance} (h : run.acceptances[i]? = some a) : run.At server (i + 1) a.after
  | world : run.At server run.acceptances.length run.world
  | operator {i : Nat} {w : World} {call : Call} (h : run.At server i w) (hcall : call.byOperator = true) :
    run.At server i (step server w call).1

/-- The progress of a run from `w` is the durable progress. -/
structure Faithful (server : Server) (configuration : SupplyExecutionConfiguration) (w : World) (run : Run α ε) : Prop where
  pages : run.acceptances.length ≤ configuration.pageLimit
  bytes : (run.acceptances.map (·.payload.length)).sum ≤ configuration.cumulativeByteLimit
  stalled : ∀ block, block <:+: run.acceptances → Stalled block → block.length ≤ configuration.noProgressPageLimit
  /-- The durable checkpoint is the last accepted page's proposal, or the redeemed one. -/
  durable : ∀ i v, run.At server i v → v.durable = lastProposal w.durable (run.acceptances.take i)
  /-- The adapter is asked from it. -/
  asked : ∀ (i : Nat) (t : Loop α), run.heads[i]? = some t → t.checkpoint = lastProposal w.durable (run.acceptances.take i)
  completes : (∃ refs, run.result = .ok refs) ↔ run.world.job.state = .completed
  /-- After a crash at any moment, the next redemption resumes from it. -/
  resumes : ∀ i v, run.At server i v → ∀ claims checkpoint v', redeem server v claims = some (checkpoint, v') →
    checkpoint = lastProposal w.durable (run.acceptances.take i)

theorem redeem_returns {c : LeaseClaims} {checkpoint : Option (List UInt8)} (h : redeem server w c = some (checkpoint, w')) :
    checkpoint = w.durable ∧ w'.durable = w.durable ∧ w.job.state = .leased ∧ w'.job.state = .running := by
  have hw := redeem_eq_some h
  simp only [redeem, Option.bind_eq_bind, Option.bind_eq_some_iff, Option.guard_eq_some', exists_const, Option.some.injEq,
    Prod.mk.injEq] at h
  obtain ⟨-, hstate, -, rfl⟩ := hw
  obtain ⟨-, -, -, -, -, rfl, -⟩ := h
  exact ⟨rfl, rfl, hstate, rfl⟩

theorem Run.At.durable {c : Option (List UInt8)} (h : Tracks c run) {i : Nat} {v : World} (hv : run.At server i v) :
    v.durable = lastProposal c (run.acceptances.take i) := by
  induction hv with
  | head ht => exact h.heads _ _ ht
  | before ha => exact h.before _ _ ha
  | after ha => rw [lastProposal_take ha]; exact h.after _ _ ha
  | world => rw [List.take_length]; exact h.world
  | operator _ hcall ih => exact (operator_step hcall).1.trans ih

/-- A run of the loop is faithful exactly when each of its acceptances moves the database. -/
theorem Unfolds.faithful_iff (h : Unfolds server configuration operators adapter claims s run)
    (hreads : ∀ page, adapter.Emits page → ReadsBack server page) (hs : s.world.durable = s.checkpoint)
    (hw : w.durable = s.checkpoint) (hstate : s.world.job.state ≠ .completed) (hcount : s.acceptedPageCount = 0)
    (hbytes : s.acceptedByteCount = 0) (hstalled : s.consecutiveNoProgressPages = 0) :
    Faithful server configuration w run ↔ ∀ a ∈ run.acceptances, a.Moves := by
  constructor
  · intro hf a ha hrepeats
    obtain ⟨⟨t, haccepts⟩, hlast⟩ := h.accepts ha
    obtain ⟨hrunning, ⟨-, hdurable, hjob⟩ | ⟨hnot, -⟩⟩ := haccepts.effect hreads
    · obtain ⟨i, hi⟩ := List.mem_iff_getElem?.mp ha
      have hafter := hf.durable _ _ (.after hi)
      rw [lastProposal_take hi, hdurable] at hafter
      refine ⟨hafter, ?_⟩
      -- a repeated terminal page would return while the job runs on
      by_contra hterminal
      obtain ⟨hok, hworld⟩ := hlast (by simpa using hterminal)
      have := hf.completes.mp hok
      rw [hworld, hjob, hrunning] at this
      cases this
    · exact absurd hrepeats hnot
  · intro hmoves
    have htracks := h.tracks hreads hs hmoves
    rw [← hw] at htracks
    refine ⟨?_, ?_, ?_, fun i v hv => hv.durable htracks, ?_, h.completes hreads hstate hmoves, ?_⟩
    · have := h.pages (by omega)
      omega
    · have := h.bytes (by omega)
      omega
    · intro block hblock hst
      exact h.stalled (by omega) hblock hst
    · intro i t ht
      rw [hw]
      exact h.asked ht
    · intro i v hv c checkpoint v' hredeem
      rw [(redeem_returns hredeem).1]
      exact hv.durable htracks

end Rounds

/-! ### An adapter that repeats a page -/

/-- How a page without documents is staged. -/
theorem stage_empty {page : SupplyChangePage} {payload : List UInt8} (htext : server.uuidText = uuidText)
    (hdocuments : page.documents = []) (hdeleted : page.deletedDocumentRefs = [])
    (hparse : server.parseJsonb payload = some page.document)
    (hdecode : server.decodeBase64 (String.ofList (base64 page.checkpointProposal)) = some page.checkpointProposal)
    (href : acceptsRef page.pageRef = true) (hpayload : 1 ≤ payload.length ∧ payload.length ≤ 268435456)
    (hcheckpoint : 1 ≤ page.checkpointProposal.length ∧ page.checkpointProposal.length ≤ 1048576) (epoch : Option Nat)
    (now : Timestamp) :
    stage server page.binding page.pageRef payload epoch now =
      some ⟨server.digest payload, page.checkpointProposal, server.digest page.checkpointProposal, page.terminal⟩ := by
  simp only [stage, Option.bind_eq_bind, Option.bind_eq_some_iff, Option.guard_eq_some', exists_const]
  refine ⟨href, hpayload, _, hparse, rfl, ?_, ?_, ?_, ?_, ?_, ?_, ?_, ?_, ?_⟩
  all_goals simp only [SupplyChangePage.document, hdocuments, hdeleted, List.map_nil, names, Jsonb.get_cons, String.reduceEq, if_true,
    if_false, Option.bind_some, Server.text, htext, beq_self_eq_true, Jsonb.isA, Jsonb.type, Jsonb.elements, List.all_nil,
    Option.any_some, decide_true]
  simp only [b64, hdecode, Option.bind_some, Option.bind_eq_some_iff, Option.guard_eq_some', exists_const, and_true]
  exact hcheckpoint

namespace BridgeInstance

def id (n : Nat) : UUID := .ofNat n

def binding : PageBinding := ⟨id 1, id 3, id 4⟩

/-- A page that only moves the checkpoint. -/
def page (ref : String) (checkpoint : List UInt8) : SupplyChangePage := ⟨binding, ref, [], [], checkpoint, false⟩

def first : SupplyChangePage := page "page-1" [1]

def second : SupplyChangePage := page "page-2" [2]

def payloadOf (page : SupplyChangePage) : List UInt8 := ascii (dumpsChars page.document)

/-- A server that reads the two pages. -/
def postgres : Server where
  castJsonb b := castOf (([first, second].find? fun p => payloadOf p = b).map (·.document))
  decodeBase64 s := [[1], [2]].find? fun b => base64 b = s.toList
  timestamptz _ := none
  bigint _ := none
  digest := sha256
  uuidText
  valueText := dumps

def pageOf : Bool → SupplyChangePage
  | true => second
  | false => first

/-- What the octets of the two pages are told apart by, and what is read off each of them. -/
theorem page_octets : (payloadOf first).drop 180 ≠ (payloadOf second).drop 180 ∧
    ∀ b, (1 ≤ (payloadOf (pageOf b)).length ∧ (payloadOf (pageOf b)).length ≤ 300) ∧ acceptsRef (pageOf b).pageRef = true ∧
      postgres.decodeBase64 (String.ofList (base64 (pageOf b).checkpointProposal)) = some (pageOf b).checkpointProposal := by
  decide +kernel

theorem second_ne_first : payloadOf first ≠ payloadOf second := by
  intro h
  exact page_octets.1 (by rw [h])

theorem parse_pageOf (b : Bool) : postgres.parseJsonb (payloadOf (pageOf b)) = some (pageOf b).document := by
  cases b
  · simp [Server.parseJsonb, postgres, pageOf]
  · simp [Server.parseJsonb, postgres, pageOf, second_ne_first]

theorem decode_pageOf (b : Bool) : postgres.decodeBase64 (String.ofList (base64 (pageOf b).checkpointProposal)) =
    some (pageOf b).checkpointProposal := (page_octets.2 b).2.2

theorem payload_pageOf (b : Bool) : 1 ≤ (payloadOf (pageOf b)).length ∧ (payloadOf (pageOf b)).length ≤ 300 :=
  (page_octets.2 b).1

theorem serialize_pageOf (b : Bool) : serializeSupplyChangePage (pageOf b) = some (payloadOf (pageOf b)) := by
  have h := (payload_pageOf b).2
  rw [serializeSupplyChangePage]
  exact if_neg (Nat.not_lt.mpr (h.trans (by decide)))

theorem reads_pageOf (b : Bool) : ReadsBack postgres (pageOf b) := by
  intro payload document hpayload hparse
  rw [serialize_pageOf] at hpayload
  cases hpayload
  rw [parse_pageOf] at hparse
  cases hparse
  simp only [SupplyChangePage.document, Jsonb.get_cons, String.reduceEq, if_true, if_false, b64, Server.text, Option.bind_some,
    decode_pageOf, and_self]

/-- Return the next of the pages still to come, then lose the connection. -/
def pop (_ : PageBinding) : List Bool → Except Unit (SupplyChangePage × List Bool)
  | [] => .error ()
  | b :: rest => .ok (pageOf b, rest)

def adapter : ConnectorAdapter (List Bool) Unit := ⟨fun _ => .ok, pop, pop⟩

theorem adapter_reads (page : SupplyChangePage) (h : adapter.Emits page) : ReadsBack postgres page := by
  obtain ⟨binding, a, a', h⟩ := h
  have h : pop binding a = .ok (page, a') := h.elim (fun h => h) fun h => h
  cases a with
  | nil => cases h
  | cons b rest =>
    cases h
    exact reads_pageOf b

def configuration : SupplyExecutionConfiguration := ⟨10, 10000, 3, by decide⟩

/-- Nothing happens around the bridge. -/
def operators : Operators := fun _ => []

open ConnectorInstance (request fresh_fresh request_for)

/-- The job is leased. -/
def leased : World := { ConnectorInstance.fresh with job := reissued postgres ConnectorInstance.fresh request 0 }

def claims : LeaseClaims :=
  { sessionUser := .worker
    organizationId := some (id 1)
    sourceVersionId := some (id 3)
    workerJobId := some (id 4)
    servicePrincipalId := some (id 5)
    leaseGeneration := some 1
    signingKeyVersion := some 1
    nonce := some (List.replicate 32 0)
    issuedAt := some 0
    expiresAt := some (60 * MICROS)
    policyEpoch := some 1
    idempotencyKey := some (leaseKey postgres ConnectorInstance.fresh.job 1)
    allowedSourceVersionIds := some [id 3]
    allowedOperations := some ["connector.execute"]
    serviceActorExpiresAt := some (60 * MICROS) }

theorem leased_reached : after (step postgres) ConnectorInstance.fresh [.issue request] = leased := by
  have hfor : request.For ConnectorInstance.fresh.job := request_for ⟨rfl, rfl, rfl, rfl, rfl⟩
  have hissue : issue postgres ConnectorInstance.fresh request = some ((reissued postgres ConnectorInstance.fresh request 0).leaseRow, leased) :=
    issue_eq_some.mpr ⟨hfor.accepted, hfor.selects, .inl rfl, rfl, (reissued_checks hfor (by decide) _).mpr (by decide), rfl, rfl⟩
  rw [after_cons, after_nil, step, hissue]
  rfl

/-- The job under the redeemed lease. -/
def runningJob : ConnectorJob := { leased.job with state := .running, redeemedAt := some 0 }

def running : World := { leased with job := runningJob }

theorem verifies_of {v : World} (hjob : v.job.lease = runningJob.lease ∧ v.job.leaseGeneration = 1 ∧
    v.job.organizationId = id 1 ∧ v.job.sourceVersionId = id 3 ∧ v.job.workerJobId = id 4 ∧ v.job.servicePrincipalId = id 5)
    (hclock : v.clock = 0) (hepoch : v.policyEpoch = 1) (hauthorized : v.authorized = true) :
    verifies postgres v claims = true := by
  obtain ⟨hlease, hgeneration, horg, hversion, hworker, hprincipal⟩ := hjob
  have hl : runningJob.lease = ⟨some 1, some (postgres.digest (List.replicate 32 0)), some 0, some (60 * MICROS), some 1,
    some (leaseKey postgres ConnectorInstance.fresh.job 1), some [id 3], some ["connector.execute"], some (60 * MICROS)⟩ := rfl
  simp [verifies, hlease, hgeneration, horg, hversion, hworker, hprincipal, hclock, hepoch, hauthorized, hl, claims, sqlEq, sqlBefore, MICROS]

theorem runningJob_checks : runningJob.checks = true := by
  have hchecks : leased.job.checks = true :=
    (reissued_checks (request_for ⟨rfl, rfl, rfl, rfl, rfl⟩) (by decide) _).mpr (by decide)
  have hstate : leased.job.state = .leased := rfl
  simp only [ConnectorJob.checks, hstate, Bool.and_eq_true, decide_eq_true_eq] at hchecks
  obtain ⟨hgeneration, ⟨hlease, -⟩, -⟩ := hchecks
  have hlease' : runningJob.leaseChecks = true := hlease
  have hstate' : runningJob.state = .running := rfl
  simp only [ConnectorJob.checks, hstate', Bool.and_eq_true, decide_eq_true_eq]
  exact ⟨hgeneration, ⟨⟨hlease', rfl⟩, rfl⟩, rfl⟩

theorem redeem_leased : redeem postgres leased claims = some (none, running) := by
  have hverifies : verifies postgres leased claims = true := verifies_of ⟨rfl, rfl, rfl, rfl, rfl, rfl⟩ rfl rfl rfl
  simp only [redeem, Option.bind_eq_bind, Option.bind_eq_some_iff, Option.guard_eq_some', exists_const]
  exact ⟨rfl, hverifies, rfl, rfl, runningJob_checks, rfl⟩

/-- What staging reads of a page. -/
def staged (b : Bool) : Staged :=
  ⟨sha256 (payloadOf (pageOf b)), (pageOf b).checkpointProposal, sha256 (pageOf b).checkpointProposal, false⟩

theorem stage_pageOf (b : Bool) (now : Timestamp) :
    stage postgres binding (pageOf b).pageRef (payloadOf (pageOf b)) (some 1) now = some (staged b) := by
  have h := payload_pageOf b
  cases b
  · exact stage_empty rfl rfl rfl (parse_pageOf false) (decode_pageOf false) (page_octets.2 false).2.1 ⟨h.1, h.2.trans (by decide)⟩
      (by decide) (some 1) now
  · exact stage_empty rfl rfl rfl (parse_pageOf true) (decode_pageOf true) (page_octets.2 true).2.1 ⟨h.1, h.2.trans (by decide)⟩
      (by decide) (some 1) now

/-- The database while the lease is held. -/
structure Held (v : World) : Prop where
  job : v.job = runningJob
  clock : v.clock = 0
  epoch : v.policyEpoch = 1
  authorized : v.authorized = true

theorem Held.verifies {v : World} (h : Held v) : verifies postgres v claims = true := by
  refine verifies_of ?_ h.clock h.epoch h.authorized
  rw [h.job]
  exact ⟨rfl, rfl, rfl, rfl, rfl, rfl⟩

/-- A page under a new reference. -/
theorem accept_new {v : World} (h : Held v) (b : Bool) (hstaged : v.stagedPages.any (·.pageRef = (pageOf b).pageRef) = false)
    (haccepted : v.acceptedPages.find? (·.pageRef = (pageOf b).pageRef) = none) (hordinal : nextOrdinal v.acceptedPages ≤ 10) :
    ∃ v' ordinal, accept postgres v claims (pageOf b).pageRef (payloadOf (pageOf b)) = some (ordinal, v') ∧ Held v' ∧
      v'.durable = some (pageOf b).checkpointProposal ∧
      v'.stagedPages = ⟨(pageOf b).pageRef, payloadOf (pageOf b), (staged b).payloadDigest, (staged b).checkpointDigest, 0⟩ :: v.stagedPages ∧
      v'.acceptedPages = ⟨nextOrdinal v.acceptedPages, (pageOf b).pageRef, (staged b).checkpointDigest, 0⟩ :: v.acceptedPages := by
  let row : StagedPage := ⟨(pageOf b).pageRef, payloadOf (pageOf b), (staged b).payloadDigest, (staged b).checkpointDigest, v.clock⟩
  have hjob : (accepted { v with stagedPages := row :: v.stagedPages } (pageOf b).pageRef (staged b)).job = runningJob := by
    simp only [accepted, h.job]
    rfl
  refine ⟨accepted { v with stagedPages := row :: v.stagedPages } (pageOf b).pageRef (staged b), nextOrdinal v.acceptedPages, ?_,
    ⟨hjob, h.clock, h.epoch, ?_⟩, rfl, by simp [accepted, row, h.clock], by simp [accepted, h.clock]⟩
  · simp only [accept, Option.bind_eq_bind, Option.bind_eq_some_iff, Option.guard_eq_some', exists_const]
    refine ⟨rfl, _, rfl, _, rfl, _, rfl, _, stage_pageOf b _, h.verifies, by rw [h.job]; rfl, by rw [h.job]; rfl, ?_, ?_⟩
    · rw [if_neg (by simp [hstaged])]
      exact List.any_eq_true.mpr ⟨row, List.mem_cons_self, decide_eq_true ⟨rfl, rfl, rfl⟩⟩
    · simp only [if_neg (show ¬v.stagedPages.any (·.pageRef = (pageOf b).pageRef) = true by simp [hstaged]), haccepted,
        Option.bind_eq_some_iff, Option.guard_eq_some', exists_const]
      refine ⟨hordinal.trans (by decide), ?_, rfl⟩
      exact hjob ▸ runningJob_checks
  · have hauthorized := h.authorized
    simp only [World.authorized, h.job] at hauthorized ⊢
    exact hauthorized

/-- A page that was accepted before. -/
theorem accept_again {v : World} (h : Held v) (b : Bool) {p : StagedPage} (hp : p ∈ v.stagedPages)
    (hpage : p.pageRef = (pageOf b).pageRef ∧ p.payloadDigest = (staged b).payloadDigest ∧
      p.checkpointProposalDigest = (staged b).checkpointDigest) {q : AcceptedPage}
    (hq : v.acceptedPages.find? (·.pageRef = (pageOf b).pageRef) = some q) (hdigest : q.checkpointDigest = (staged b).checkpointDigest) :
    accept postgres v claims (pageOf b).pageRef (payloadOf (pageOf b)) = some (q.acceptedOrdinal, v) := by
  have hany : v.stagedPages.any (·.pageRef = (pageOf b).pageRef) = true :=
    List.any_eq_true.mpr ⟨p, hp, decide_eq_true hpage.1⟩
  simp only [accept, Option.bind_eq_bind, Option.bind_eq_some_iff, Option.guard_eq_some', exists_const]
  refine ⟨rfl, _, rfl, _, rfl, _, rfl, _, stage_pageOf b _, h.verifies, by rw [h.job]; rfl, by rw [h.job]; rfl, ?_, ?_⟩
  · rw [if_pos hany]
    exact List.any_eq_true.mpr ⟨p, hp, decide_eq_true hpage⟩
  · simp only [if_pos hany, hq, hdigest, guard_true, Option.pure_def, Option.bind_some]

/-- A round that has a page to accept. -/
theorem round_pageOf {s : Loop (List Bool)} {b : Bool} {rest : List Bool} (hpages : s.adapter = b :: rest)
    (hcount : s.acceptedPageCount < 10) (hbytes : s.acceptedByteCount ≤ 9700)
    (hprogress : some (pageOf b).checkpointProposal ≠ s.checkpoint) {ordinal : Nat} {v : World}
    (haccept : accept postgres s.world claims (pageOf b).pageRef (payloadOf (pageOf b)) = some (ordinal, v)) :
    ∃ next : Loop (List Bool), round postgres configuration operators adapter binding claims s =
      .continues ⟨s.checkpoint, pageOf b, payloadOf (pageOf b), s.world, v⟩ next ∧
      next.world = v ∧ next.adapter = rest ∧ next.checkpoint = some (pageOf b).checkpointProposal ∧
      next.acceptedPageCount = s.acceptedPageCount + 1 ∧ next.acceptedByteCount ≤ s.acceptedByteCount + 300 := by
  have hpage : nextPage adapter binding s = .ok (pageOf b, rest) := by
    simp only [nextPage, adapter, pop, hpages, bind, Except.bind, ite_self]
  have hbinding : (pageOf b).binding = binding := by cases b <;> rfl
  have hopen : (pageOf b).terminal = false := by cases b <;> rfl
  have hlength := (payload_pageOf b).2
  have hstill : (pageOf b).madeNoProgress s.checkpoint = false := by simp [SupplyChangePage.madeNoProgress, hprogress]
  have hround : round postgres configuration operators adapter binding claims s =
      acceptPage postgres operators claims s (pageOf b) rest (payloadOf (pageOf b)) := by
    have hlimit : ¬configuration.pageLimit ≤ s.acceptedPageCount := Nat.not_le.mpr hcount
    have hroom : ¬configuration.cumulativeByteLimit < s.acceptedByteCount + (payloadOf (pageOf b)).length := by
      simp only [configuration]
      omega
    rw [round, if_neg hlimit, hpage]
    simp only [serialize_pageOf, hbinding, ne_eq, not_true_eq_false, if_false, hstill, hroom, Bool.false_eq_true, false_and]
  rw [hround, acceptPage]
  simp only [operators, List.map_nil, after_nil, haccept, hopen]
  exact ⟨_, rfl, rfl, rfl, rfl, rfl, by simpa using hlength⟩

/-- The bridge after it accepted both pages. -/
structure Twice (rest : List Bool) (a₁ a₂ : Acceptance) (s₁ s₂ : Loop (List Bool)) : Prop where
  first : round postgres configuration operators adapter binding claims ⟨running, false :: true :: rest, none, [], 0, 0, 0⟩ =
    .continues a₁ s₁
  second : round postgres configuration operators adapter binding claims s₁ = .continues a₂ s₂
  pages : a₁.page = pageOf false ∧ a₂.page = pageOf true
  fresh₁ : ¬Repeats a₁.before a₁.page
  fresh₂ : ¬Repeats a₂.before a₂.page
  held : Held s₂.world
  durable : s₂.world.durable = some (pageOf true).checkpointProposal
  staged : ∃ p ∈ s₂.world.stagedPages, p.pageRef = (pageOf false).pageRef ∧ p.payloadDigest = (staged false).payloadDigest ∧
    p.checkpointProposalDigest = (staged false).checkpointDigest
  accepted : s₂.world.acceptedPages.find? (·.pageRef = (pageOf false).pageRef) =
    some ⟨1, (pageOf false).pageRef, (BridgeInstance.staged false).checkpointDigest, 0⟩
  adapter : s₂.adapter = rest
  checkpoint : s₂.checkpoint = some (pageOf true).checkpointProposal
  count : s₂.acceptedPageCount = 2
  bytes : s₂.acceptedByteCount ≤ 600

theorem twice (rest : List Bool) : ∃ a₁ a₂ s₁ s₂, Twice rest a₁ a₂ s₁ s₂ := by
  have hheld : Held running := ⟨rfl, rfl, rfl, rfl⟩
  obtain ⟨v₁, n₁, haccept₁, hheld₁, hdurable₁, hstaged₁, haccepted₁⟩ := accept_new hheld false rfl rfl (by decide)
  obtain ⟨v₂, n₂, haccept₂, hheld₂, hdurable₂, hstaged₂, haccepted₂⟩ := accept_new hheld₁ true
    (by rw [hstaged₁]; rfl) (by rw [haccepted₁]; rfl) (by rw [haccepted₁]; decide)
  obtain ⟨s₁, hround₁, hworld₁, hpages₁, hcheckpoint₁, hcount₁, hbytes₁⟩ :=
    @round_pageOf ⟨running, false :: true :: rest, none, [], 0, 0, 0⟩ false (true :: rest) rfl (show 0 < 10 by decide)
      (show 0 ≤ 9700 by decide) (Option.some_ne_none _) n₁ v₁ haccept₁
  obtain ⟨s₂, hround₂, hworld₂, hpages₂, hcheckpoint₂, hcount₂, hbytes₂⟩ :=
    @round_pageOf s₁ true rest hpages₁ (by simp only [hcount₁]; decide) (hbytes₁.trans (by simp)) (by rw [hcheckpoint₁]; decide) n₂ v₂
      (by rw [hworld₁]; exact haccept₂)
  refine ⟨⟨none, pageOf false, payloadOf (pageOf false), running, v₁⟩, ⟨s₁.checkpoint, pageOf true, payloadOf (pageOf true), s₁.world, v₂⟩,
    s₁, s₂, ?_⟩
  constructor
  · exact hround₁
  · exact hround₂
  · exact ⟨rfl, rfl⟩
  · rintro ⟨p, hp, -⟩
    cases hp
  · rintro ⟨p, hp, href⟩
    simp only [hworld₁, haccepted₁] at hp
    cases List.mem_singleton.mp hp
    exact absurd href (show (pageOf false).pageRef ≠ (pageOf true).pageRef by decide)
  · rw [hworld₂]
    exact hheld₂
  · rw [hworld₂]
    exact hdurable₂
  · rw [hworld₂, hstaged₂, hstaged₁]
    exact ⟨_, List.mem_cons_of_mem _ List.mem_cons_self, rfl, rfl, rfl⟩
  · rw [hworld₂, haccepted₂, haccepted₁]
    rfl
  · exact hpages₂
  · exact hcheckpoint₂
  · rw [hcount₂, hcount₁]
  · exact hbytes₂.trans (by simp only at hbytes₁; omega)

end BridgeInstance

end ContextEngine.Supply
