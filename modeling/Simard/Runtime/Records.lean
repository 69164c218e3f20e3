import Simard.Runtime.Sessions

/-! Whether a session is recorded as it ended, over every sequence of calls. A kernel that was
composed from a handoff remembers the session it was handed; a run before the kernel is started
fails, and marks that session. -/
namespace Simard.Runtime
open Simard.Library Action

structure Stores.Without (stores : Stores) (id : String) : Prop where
  memory : ∀ record ∈ stores.memory, record.sessionId ≠ id
  evidence : ∀ record ∈ stores.evidence, record.sessionId ≠ id
  goals : ∀ record ∈ stores.goals, record.sourceSessionId ≠ id

def World.remembered (world : World) : Option SessionRecord := world.kernel.bind (·.lastSession)

def KernelCall.handedOver : KernelCall → Option SessionRecord
  | .composeFromHandoff _ snapshot _ => snapshot.session.map (·.redactedForHandoff)
  | _ => none

def World.Returns (backends : Backends) (world : World) (kernel : RuntimeKernel)
    (event : KernelCall)
    (answers : RunAnswers) (result : Except RuntimeError SessionOutcome) : Prop :=
  ∃ objective, event = .run objective answers ∧ world.kernel = some kernel ∧
    (call (run backends answers objective) ⟨kernel, world.stores⟩).1 = result

structure Recorded (backends : Backends) (t : Machine.Transition World KernelCall) : Prop where
  unwritten : ∀ kernel answers error,
    t.before.Returns backends kernel t.event answers (.error error) →
    (∀ after, t.after.kernel = some after → ¬ kernel.EnteredSince after .persisting) →
    t.after.stores.Without answers.sessionId
  completed : ∀ kernel answers outcome,
    t.before.Returns backends kernel t.event answers (.ok outcome) →
    outcome.session.phase = .complete ∧ t.after.remembered = some outcome.session ∧
    t.after.kernel.map (·.state) = some .ready ∧
    (∀ key ∈ outcome.session.memoryKeys, ∃ record ∈ t.after.stores.memory,
      record.key = key ∧ record.sessionId = outcome.session.id) ∧
    ∀ evidenceId ∈ outcome.session.evidenceIds, ∃ record ∈ t.after.stores.evidence,
      record.id = evidenceId ∧ record.sessionId = outcome.session.id
  failed : ∀ session, t.after.remembered = some session → session.phase = .failed →
    t.before.remembered = some session ∨ t.event.handedOver = some session ∨
    ∃ kernel answers error, t.before.Returns backends kernel t.event answers (.error error) ∧
      session.id = answers.sessionId
  kept : ∀ kernel answers error session before,
    t.before.Returns backends kernel t.event answers (.error error) →
    t.before.remembered = some before → before.phase = .complete →
    t.after.remembered = some session → session.id = before.id → session = before

/-- Session ids are generated: the one a run is given is new. -/
def World.Fresh (world : World) : KernelCall → Prop
  | .run _ answers => world.stores.Without answers.sessionId ∧
      ∀ session, world.remembered = some session → session.id ≠ answers.sessionId
  | _ => True

/-- A run on a kernel that was not started finds no session, or one that has failed; and the store
has room for the records of the run. -/
def World.Orderly (backends : Backends) (world : World) : KernelCall → Prop
  | .run _ answers =>
      (∀ kernel session, world.kernel = some kernel → kernel.state.closed = false →
        kernel.state ≠ .ready → kernel.lastSession = some session → session.phase = .failed) ∧
      ∀ additional, answers.additionalMemoryRecords = .ok additional →
        backends.memory.Fits (additional.length + 2)
  | _ => True

section Steps

variable {backends : Backends} {world : World} {kernel : RuntimeKernel} {objective : String}
  {answers : RunAnswers}

theorem World.apply_eq {α : Type} (h : world.kernel = some kernel) (action : KernelAction α) :
    world.apply action =
      ⟨(call action ⟨kernel, world.stores⟩).2.stores,
        some (call action ⟨kernel, world.stores⟩).2.kernel⟩ := by
  rw [World.apply, h]

theorem recorded_of_same {after : World} (hfresh : world.Fresh (.run objective answers))
    (hfails : ∀ kernel answers' outcome,
      ¬ world.Returns backends kernel (.run objective answers) answers' (.ok outcome))
    (hstores : after.stores = world.stores) (hremembered : after.remembered = world.remembered) :
    Recorded backends ⟨world, .run objective answers, after⟩ where
  unwritten := by
    rintro _ _ _ ⟨_, ⟨⟩, -⟩ -
    rw [hstores]
    exact hfresh.1
  completed _ _ _ h := absurd h (hfails _ _ _)
  failed := by
    intro session hsession _
    rw [hremembered] at hsession
    exact .inl hsession
  kept := by
    intro _ _ _ session before _ hbefore _ hsession _
    rw [hremembered, hbefore, Option.some.injEq] at hsession
    exact hsession.symm

theorem not_returns_ok {host : Host} {error : RuntimeError} (h : world.kernel = some kernel)
    (hcall : call (run backends answers objective) ⟨kernel, world.stores⟩ = (.error error, host)) :
    ∀ kernel answers' outcome,
      ¬ world.Returns backends kernel (.run objective answers) answers' (.ok outcome) := by
  rintro other _ _ ⟨_, ⟨⟩, hkernel, hresult⟩
  rw [h, Option.some.injEq] at hkernel
  rw [← hkernel, hcall] at hresult
  cases hresult

theorem recorded_run_closed (hfresh : world.Fresh (.run objective answers))
    (h : world.kernel = some kernel) (hclosed : kernel.state.closed) :
    Recorded backends
      ⟨world, .run objective answers, world.apply (run backends answers objective)⟩ := by
  obtain ⟨error, hcall⟩ : ∃ error, call (run backends answers objective) ⟨kernel, world.stores⟩ =
      (.error error, ⟨kernel, world.stores⟩) := call_ensureAvailable_of_closed _ hclosed
  have hafter := World.apply_eq h (run backends answers objective)
  rw [hcall] at hafter
  rw [hafter]
  refine recorded_of_same hfresh (not_returns_ok h hcall) rfl ?_
  rw [World.remembered, World.remembered, h]

theorem recorded_run_unready (hfresh : world.Fresh (.run objective answers))
    (horderly : world.Orderly backends (.run objective answers)) (h : world.kernel = some kernel)
    (hopen : kernel.state.closed = false) (hready : kernel.state ≠ .ready) :
    Recorded backends
      ⟨world, .run objective answers, world.apply (run backends answers objective)⟩ := by
  have hcall := @call_run_of_unready backends answers objective ⟨kernel, world.stores⟩ hopen hready
  rw [World.apply_eq h, hcall]
  refine recorded_of_same hfresh (not_returns_ok h hcall) stores_failRun ?_
  have hmarked : (kernel.lastSession.map fun session => { session with phase := .failed }) =
      kernel.lastSession := by
    cases hlast : kernel.lastSession with
    | none => rfl
    | some session =>
      have hfailed := horderly.1 kernel session h hopen hready hlast
      rw [Option.map_some, ← hfailed]
  rw [World.remembered, World.remembered, h]
  change (⟨kernel, world.stores⟩ : Host).failRun.kernel.lastSession = kernel.lastSession
  rcases lastSession_failRun with hsame | hsame
  · exact hsame
  · exact hsame.trans hmarked

theorem recorded_run_completed {host : Host} {outcome : SessionOutcome}
    (horderly : world.Orderly backends (.run objective answers)) (h : world.kernel = some kernel)
    (hcall : call (run backends answers objective) ⟨kernel, world.stores⟩ = (.ok outcome, host))
    (hcompleted : Completed ⟨kernel, world.stores⟩ backends answers outcome host) :
    Recorded backends ⟨world, .run objective answers, ⟨host.stores, some host.kernel⟩⟩ := by
  have hreturns {other : RuntimeKernel} {answers' : RunAnswers}
      {result : Except RuntimeError SessionOutcome}
      (hreturns : world.Returns backends other (.run objective answers) answers' result) :
      answers' = answers ∧ result = .ok outcome := by
    obtain ⟨_, ⟨⟩, hkernel, hresult⟩ := hreturns
    rw [h, Option.some.injEq] at hkernel
    rw [← hkernel, hcall] at hresult
    exact ⟨rfl, hresult.symm⟩
  exact {
    unwritten := fun _ _ _ hrun => nomatch (hreturns hrun).2
    completed := by
      intro _ _ other hrun
      obtain ⟨rfl, hresult⟩ := hreturns hrun
      cases hresult
      obtain ⟨records, additional, hadditional, hlength, hkeys, howner, hmemory⟩ :=
        hcompleted.memory
      obtain ⟨evidence, hids, hevidenceOwner, hevidence⟩ := hcompleted.evidence
      refine ⟨hcompleted.phase, hcompleted.remembered, congrArg some hcompleted.state, ?_, ?_⟩
      · intro key hkey
        rw [hkeys] at hkey
        obtain ⟨record, hrecord, rfl⟩ := List.mem_map.mp hkey
        dsimp only
        rw [hmemory]
        exact backends.memory.holds _ (hlength ▸ horderly.2 additional hadditional)
          howner record hrecord
      · intro evidenceId hid
        rw [hids] at hid
        obtain ⟨record, hrecord, rfl⟩ := List.mem_map.mp hid
        dsimp only
        rw [hevidence]
        exact backends.evidence.holds _ hevidenceOwner record hrecord
    failed := by
      intro session hsession hfailed
      cases hcompleted.remembered.symm.trans hsession
      rw [hcompleted.phase] at hfailed
      cases hfailed
    kept := fun _ _ _ _ _ hrun => nomatch (hreturns hrun).2 }

theorem recorded_run_failed {host : Host} {error : RuntimeError}
    (hfresh : world.Fresh (.run objective answers)) (h : world.kernel = some kernel)
    (hcall : call (run backends answers objective) ⟨kernel, world.stores⟩ =
      (.error error, host.failRun))
    (hunderway : Underway ⟨kernel, world.stores⟩ answers.sessionId host) :
    Recorded backends
      ⟨world, .run objective answers, ⟨host.failRun.stores, some host.failRun.kernel⟩⟩ := by
  have hown {session : SessionRecord} (hsession : host.failRun.kernel.lastSession = some session) :
      session.id = answers.sessionId := by
    obtain ⟨begun, hbegun, hid⟩ := hunderway.session
    rcases lastSession_failRun with hlast | hlast
    · rw [hlast, hbegun, Option.some.injEq] at hsession
      rw [← hsession, hid]
    · rw [hlast, hbegun, Option.map_some, Option.some.injEq] at hsession
      rw [← hsession]
      exact hid
  exact {
    unwritten := by
      rintro other _ _ ⟨_, ⟨⟩, hkernel, -⟩ hnever
      rw [h, Option.some.injEq] at hkernel
      subst hkernel
      dsimp only
      rw [stores_failRun]
      rcases hunderway.stores with hstores | hpersisting
      · rw [hstores]
        exact hfresh.1
      · exact absurd hpersisting.failRun (hnever _ rfl)
    completed := fun _ _ _ hrun => absurd hrun (not_returns_ok h hcall _ _ _)
    failed := by
      intro session hsession _
      exact .inr (.inr ⟨kernel, answers, error, ⟨objective, rfl, h, congrArg Prod.fst hcall⟩,
        hown hsession⟩)
    kept := by
      rintro _ _ _ session before ⟨_, ⟨⟩, -⟩ hbefore - hsession hid
      exact absurd (hid.symm.trans (hown hsession)) (hfresh.2 before hbefore) }

theorem recorded_run (hfresh : world.Fresh (.run objective answers))
    (horderly : world.Orderly backends (.run objective answers)) :
    Recorded backends
      ⟨world, .run objective answers, world.apply (run backends answers objective)⟩ := by
  cases h : world.kernel with
  | none =>
    rw [World.apply, h]
    refine recorded_of_same hfresh ?_ rfl rfl
    rintro _ _ _ ⟨_, -, hkernel, -⟩
    rw [h] at hkernel
    cases hkernel
  | some kernel =>
    cases hclosed : kernel.state.closed with
    | true => exact recorded_run_closed hfresh h hclosed
    | false =>
      by_cases hready : kernel.state = .ready
      case neg => exact recorded_run_unready hfresh horderly h hclosed hready
      have hmeets : Meets (· = ⟨kernel, world.stores⟩) (executeSession backends answers objective)
          (Completed ⟨kernel, world.stores⟩ backends answers)
          (Underway ⟨kernel, world.stores⟩ answers.sessionId) :=
            meets_executeSession hready objective
      have hrun := @call_run_of_open backends answers objective ⟨kernel, world.stores⟩ hclosed
      rcases hcall : call (executeSession backends answers objective) ⟨kernel, world.stores⟩ with
        ⟨result, host⟩
      rw [hcall] at hrun
      rw [World.apply_eq h, hrun]
      cases result with
      | ok outcome => exact recorded_run_completed horderly h hrun (hmeets.ok rfl hcall)
      | error error => exact recorded_run_failed hfresh h hrun (hmeets.error rfl hcall)

end Steps

section Others

variable {backends : Backends} {world : World}

theorem recorded_of_sessions {event : KernelCall} {after : World}
    (hrun : ∀ objective answers, event ≠ .run objective answers)
    (h : ∀ session, after.remembered = some session →
      world.remembered = some session ∨ event.handedOver = some session) :
    Recorded backends ⟨world, event, after⟩ where
  unwritten := by
    rintro _ _ _ ⟨_, hevent, -⟩
    exact absurd hevent (hrun _ _)
  completed := by
    rintro _ _ _ ⟨_, hevent, -⟩
    exact absurd hevent (hrun _ _)
  failed session hsession _ := (h session hsession).imp_right .inl
  kept := by
    rintro _ _ _ _ _ ⟨_, hevent, -⟩
    exact absurd hevent (hrun _ _)

theorem keeps_transition (next : RuntimeState) :
    Keeps (fun host : Host => host.kernel.lastSession) (transition next) := by
  intro host
  rw [call_transition]
  split <;> rfl

theorem keeps_start (loads : List (Except String Unit)) :
    Keeps (fun host : Host => host.kernel.lastSession) (start loads) := by
  refine Keeps.bind ?_ fun _ => Keeps.bind ?_ fun _ => keeps_transition .ready
  · exact Keeps.get.bind fun _ => Keeps.check _
  · induction loads with
    | nil => exact Keeps.pure _
    | cons load loads ih => exact Keeps.bind (Keeps.check _) fun _ => ih

theorem keeps_stop : Keeps (fun host : Host => host.kernel.lastSession) stop := by
  refine Keeps.get.bind fun host => ?_
  dsimp only
  split
  · exact Keeps.check _
  · exact (keeps_transition .stopping).bind fun _ => keeps_transition .stopped

theorem remembered_apply {α : Type} {action : KernelAction α}
    (h : Keeps (fun host : Host => host.kernel.lastSession) action) :
    (world.apply action).remembered = world.remembered := by
  cases hkernel : world.kernel with
  | none => rw [World.apply, hkernel]
  | some kernel =>
    rw [World.apply_eq hkernel, World.remembered, World.remembered, hkernel]
    exact h _

theorem meets_composeFromHandoff (request : RuntimeRequest) (snapshot : HandoffSnapshot)
    (answers : HandoffAnswers) :
    Meets (fun _ => True) (composeFromHandoff backends request snapshot answers)
      (fun _ host => host.kernel.lastSession = snapshot.session.map (·.redactedForHandoff))
      fun _ => True := by
  have hset : Meets (fun _ => True)
      (modify fun host : Host => { host with kernel :=
          { host.kernel with lastSession := snapshot.session.map (·.redactedForHandoff) } } :
        KernelAction Unit)
      (fun _ host => host.kernel.lastSession = snapshot.session.map (·.redactedForHandoff))
      fun _ => True := Meets.modifies fun _ _ => rfl
  refine (Meets.always _).bind fun _ => (Meets.always _).bind fun _ =>
    (Meets.always _).bind fun _ => ?_
  refine (Meets.always _).bind fun _ => hset.bind fun _ => ?_
  exact (meets_ask fun _ _ => trivial).imp (fun _ h => h) (fun _ _ h => h.2) fun _ h => h

theorem recorded_step (event : KernelCall) (hfresh : world.Fresh event)
    (horderly : world.Orderly backends event) :
    Recorded backends ⟨world, event, world.step backends event⟩ := by
  cases event with
  | run objective answers => exact recorded_run hfresh horderly
  | start loads =>
    refine recorded_of_sessions (fun _ _ => nofun) fun session hsession => .inl ?_
    rwa [World.step, remembered_apply (keeps_start loads)] at hsession
  | stop =>
    refine recorded_of_sessions (fun _ _ => nofun) fun session hsession => .inl ?_
    rwa [World.step, remembered_apply keeps_stop] at hsession
  | compose request checks =>
    refine recorded_of_sessions (fun _ _ => nofun) fun session hsession => ?_
    cases checks with
    | ok _ => cases hsession
    | error reason => exact .inl hsession
  | composeFromHandoff request snapshot answers =>
    refine recorded_of_sessions (fun _ _ => nofun) fun session hsession => ?_
    rw [World.step] at hsession
    split at hsession
    · next host hcall =>
      have hlast := (meets_composeFromHandoff request snapshot answers).ok trivial hcall
      exact .inr (hlast.symm.trans hsession)
    · exact .inl hsession

end Others

section Sequences

variable (backends : Backends)

theorem kernelMachine_step (world : World) (event : KernelCall) :
    (kernelMachine backends).step world event = world.step backends event := rfl

/-- Every session is recorded as it ended if no run comes before the kernel is started while the
kernel remembers a session that has not failed, and the stores have room. -/
theorem sessions_recorded (stores : Stores) (events : List KernelCall)
    (hfresh : ∀ t ∈ (kernelMachine backends).trace (.initial stores) events, t.before.Fresh t.event)
    (horderly : ∀ t ∈ (kernelMachine backends).trace (.initial stores) events,
      t.before.Orderly backends t.event) :
    ∀ t ∈ (kernelMachine backends).trace (.initial stores) events, Recorded backends t := by
  intro t ht
  obtain ⟨-, -, -, -, hafter⟩ := Machine.mem_trace _ ht
  rw [kernelMachine_step] at hafter
  have hrecorded := recorded_step t.event (hfresh t ht) (horderly t ht)
  rwa [← hafter] at hrecorded

end Sequences

def RunAnswers.granted (sessionId : String) : RunAnswers where
  sessionId := sessionId
  planTurn := .ok ()
  openSession := .ok ()
  openTurn := .ok ()
  runTurn := .ok ⟨"plan", "summary", ["detail"]⟩
  close := .ok ()
  reflectionSummary := .ok "reflection"
  snapshot := .ok ()
  putMemory _ := .done
  recordEvidence _ := .done
  persistenceSummary := .ok "summary"
  additionalMemoryRecords := .ok []
  goalUpdates := .ok []
  putGoal _ := .done
  consolidation := none

def unlimited : Backends := ⟨.inMemory 0, .inMemory⟩

def engineer : RuntimeRequest := ⟨"engineer", "local-harness", .sessionSummary⟩

theorem Stores.without_empty (id : String) : Stores.Without ⟨[], [], []⟩ id where
  memory := nofun
  evidence := nofun
  goals := nofun

theorem started_session_recorded :
    ((kernelMachine unlimited).run (.initial ⟨[], [], []⟩)
      [.compose engineer (.ok ()), .start [], .run "objective" (.granted "one")]).remembered.map
        (·.phase) = some .complete ∧
    ∀ t ∈ (kernelMachine unlimited).trace (.initial ⟨[], [], []⟩)
      [.compose engineer (.ok ()), .start [], .run "objective" (.granted "one")],
      Recorded unlimited t := by
  refine ⟨rfl, sessions_recorded unlimited ⟨[], [], []⟩ _ ?_ ?_⟩
  · rw [Machine.trace, Machine.trace, Machine.trace, List.forall_mem_cons, List.forall_mem_cons,
      List.forall_mem_cons]
    refine ⟨trivial, trivial, ⟨Stores.without_empty "one", ?_⟩, List.forall_mem_nil _⟩
    intro session hsession
    cases hsession
  · rw [Machine.trace, Machine.trace, Machine.trace, List.forall_mem_cons, List.forall_mem_cons,
      List.forall_mem_cons]
    refine ⟨trivial, trivial, ⟨?_, fun _ _ => .inl rfl⟩, List.forall_mem_nil _⟩
    intro kernel _ hkernel _ hready _
    cases hkernel
    exact absurd rfl hready

theorem not_recorded_run_initializing {backends : Backends} {stores : Stores}
    {request : RuntimeRequest} {session : SessionRecord} (hcomplete : session.phase = .complete)
    (objective : String) (answers : RunAnswers) :
    ¬ Recorded backends ⟨⟨stores, some ⟨request, .initializing, some session, []⟩⟩,
      .run objective answers,
      World.step backends ⟨stores, some ⟨request, .initializing, some session, []⟩⟩
        (.run objective answers)⟩ := by
  intro h
  have hcall := @call_run_of_unready backends answers objective
    ⟨⟨request, .initializing, some session, []⟩, stores⟩ rfl nofun
  have hkept := h.kept _ answers _ { session with phase := .failed } session
    ⟨objective, rfl, rfl, congrArg Prod.fst hcall⟩ rfl hcomplete
  rw [World.step, World.apply_eq rfl, hcall] at hkept
  have hsame := congrArg SessionRecord.phase (hkept rfl rfl)
  rw [hcomplete] at hsame
  cases hsame

theorem step_handoff {backends : Backends} (stores : Stores) (request : RuntimeRequest)
    (session : SessionRecord) :
    World.step backends (.initial stores)
      (.composeFromHandoff request ⟨request.name, request.selectedBaseType, some session, [], []⟩
        ⟨.ok (), fun _ => .done, fun _ => .done, .ok ()⟩) =
      ⟨stores, some ⟨request, .initializing, some session.redactedForHandoff, []⟩⟩ := by
  have hcheck : checkHandoff request
      ⟨request.name, request.selectedBaseType, some session, [], []⟩ = .ok () := by
    simp [checkHandoff]
  rw [World.step, Runtime.composeFromHandoff, hcheck]
  rfl

theorem handed_over_session_marked_failed :
    ¬ ∀ t ∈ (kernelMachine unlimited).trace (.initial ⟨[], [], []⟩)
      [.composeFromHandoff engineer
        ⟨"engineer", "local-harness", some ⟨"zero", "objective", .complete, [], []⟩, [], []⟩
        ⟨.ok (), fun _ => .done, fun _ => .done, .ok ()⟩,
        .run "objective" (.granted "one")], Recorded unlimited t := by
  intro h
  rw [Machine.trace, Machine.trace, List.forall_mem_cons, List.forall_mem_cons,
    kernelMachine_step, kernelMachine_step] at h
  have hhandoff := @step_handoff unlimited ⟨[], [], []⟩ engineer
    ⟨"zero", "objective", .complete, [], []⟩
  rw [engineer] at hhandoff
  rw [engineer, hhandoff] at h
  exact not_recorded_run_initializing rfl _ _ h.2.1

end Simard.Runtime
