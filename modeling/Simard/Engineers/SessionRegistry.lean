import Simard.Library.Eviction
import Simard.Library.Machine
import Simard.Library.Text

/-! The registry of the terminal sessions that engineers run in. It is one file, and every change
loads it, changes it and puts a new one in its place, all under one lock. A file that cannot be read
or parsed counts as empty. -/
namespace Simard.Engineers
open Simard.Library

structure SubagentSession where
  agentId : String
  sessionName : String
  host : String
  pid : Nat
  createdAt : Int
  endedAt : Option Int
  goalId : String
  deriving DecidableEq

def maxSessions : Nat := 500

def retentionSeconds : Int := 86400

def configuredRetention (setting : Option String) : Int :=
  (setting.bind fun text => parseSigned 64 text.toList).getD retentionSeconds

/-- The sessions that ended give way, those first that ended first. -/
def enforceCap (sessions : List SubagentSession) : List SubagentSession :=
  keepWithin (·.endedAt.isSome) (fun session => session.endedAt.getD (2 ^ 63 - 1))
    maxSessions sessions

def markEnded (alive : String → Bool) (now : Int) (session : SubagentSession) : SubagentSession :=
  if session.endedAt.isSome then session
  else if !alive session.sessionName then { session with endedAt := some now }
  else session

def isRetained (now retentionSecs : Int) (session : SubagentSession) : Bool :=
  match session.endedAt with
  | some ended => now - ended ≤ retentionSecs
  | none => true

/-- Whether the file could be read and parsed, and whether the new one took its place. -/
structure Access where
  reads : Bool
  saves : Bool

inductive RegistryEvent where
  | recordSpawn (session : SubagentSession) (access : Access)
  | gcWithRetention (alive : String → Bool) (now retentionSecs : Int) (access : Access)

namespace RegistryEvent

def access : RegistryEvent → Access
  | recordSpawn _ access => access
  | gcWithRetention _ _ _ access => access

def change (sessions : List SubagentSession) : RegistryEvent → List SubagentSession
  | recordSpawn session _ => enforceCap (sessions ++ [session])
  | gcWithRetention alive now retentionSecs _ =>
      (sessions.map (markEnded alive now)).filter (isRetained now retentionSecs)

end RegistryEvent

def pollAndGc (setting : Option String) (alive : String → Bool) (now : Int) (access : Access) :
    RegistryEvent := .gcWithRetention alive now (configuredRetention setting) access

def load (access : Access) (stored : List SubagentSession) : List SubagentSession :=
  if access.reads then stored else []

/-- The sessions that the file holds, a missing file being an empty one. -/
def registryMachine : Machine (List SubagentSession) RegistryEvent where
  step stored event :=
    if event.access.saves then event.change (load event.access stored) else stored

variable {session : SubagentSession} {stored : List SubagentSession}

theorem mem_enforceCap (hrunning : session.endedAt = none) :
    session ∈ enforceCap stored ↔ session ∈ stored := by
  have hunmarked : (!session.endedAt.isSome) = true := by
    rw [hrunning]
    rfl
  have hkept : (enforceCap stored).filter (fun session => !session.endedAt.isSome) =
      stored.filter (fun session => !session.endedAt.isSome) :=
    filter_unmarked_keepWithin _ _ maxSessions stored
  have hmem (sessions : List SubagentSession) :
      session ∈ sessions.filter (fun session => !session.endedAt.isSome) ↔ session ∈ sessions := by
    rw [List.mem_filter]
    exact and_iff_left hunmarked
  rw [← hmem, hkept, hmem]

theorem mem_swept (hrunning : session.endedAt = none) (alive : String → Bool)
    (now retentionSecs : Int) :
    session ∈ (stored.map (markEnded alive now)).filter (isRetained now retentionSecs) ↔
      session ∈ stored ∧ alive session.sessionName = true := by
  have hretained : isRetained now retentionSecs session = true := by
    rw [isRetained, hrunning]
  rw [List.mem_filter, List.mem_map, and_iff_left hretained]
  constructor
  · rintro ⟨other, hother, hmarked⟩
    unfold markEnded at hmarked
    split at hmarked
    next hended =>
      rw [hmarked, hrunning] at hended
      cases hended
    next =>
      split at hmarked
      · rw [← hmarked] at hrunning
        cases hrunning
      next halive =>
        rw [hmarked] at hother halive
        exact ⟨hother, by simpa using halive⟩
  · rintro ⟨hmem, halive⟩
    refine ⟨session, hmem, ?_⟩
    simp [markEnded, hrunning, halive]

def RegistryEvent.Spares (session : SubagentSession) (event : RegistryEvent) : Prop :=
  event.access.saves = true → event.access.reads = true ∧
    match event with
    | .recordSpawn _ _ => True
    | .gcWithRetention alive _ _ _ => alive session.sessionName = true

theorem mem_load {access : Access} :
    session ∈ load access stored ↔ session ∈ stored ∧ access.reads = true := by
  unfold load
  cases access.reads with
  | true => simp
  | false => simp

theorem mem_step_iff (hrunning : session.endedAt = none) {event : RegistryEvent}
    (hother : ∀ access, event ≠ .recordSpawn session access) :
    session ∈ registryMachine.step stored event ↔ session ∈ stored ∧ event.Spares session := by
  unfold registryMachine
  dsimp only
  by_cases hsaves : event.access.saves = true
  · rw [if_pos hsaves]
    cases event with
    | recordSpawn other access =>
      have hne : session ≠ other := fun heq => hother access (heq ▸ rfl)
      rw [RegistryEvent.change, mem_enforceCap hrunning, List.mem_append, List.mem_singleton,
        or_iff_left hne, mem_load]
      exact and_congr_right fun _ => ⟨fun hreads _ => ⟨hreads, trivial⟩, fun h => (h hsaves).1⟩
    | gcWithRetention alive now retentionSecs access =>
      rw [RegistryEvent.change, mem_swept hrunning, mem_load, and_assoc]
      exact and_congr_right fun _ => ⟨fun h _ => h, fun h => h hsaves⟩
  · rw [if_neg hsaves]
    exact (and_iff_left fun h => absurd h hsaves).symm

/-- A session that was recorded as running stays in the registry exactly as long as every change
that is saved read the file and every sweep among them found the session alive. -/
theorem recorded_session_listed_iff (hrunning : session.endedAt = none)
    (before after : List RegistryEvent)
    (reads : Bool) (honce : ∀ event ∈ after, ∀ access, event ≠ .recordSpawn session access) :
    session ∈ registryMachine.run [] (before ++ .recordSpawn session ⟨reads, true⟩ :: after) ↔
      ∀ event ∈ after, event.Spares session := by
  have hlater (stored : List SubagentSession) : session ∈ registryMachine.run stored after ↔
      session ∈ stored ∧ ∀ event ∈ after, event.Spares session := by
    induction after generalizing stored with
    | nil => simp
    | cons event after ih =>
      rw [List.forall_mem_cons] at honce
      rw [Machine.run_cons, ih honce.2, mem_step_iff hrunning honce.1,
        List.forall_mem_cons, and_assoc]
  have hrecorded (stored : List SubagentSession) :
      session ∈ registryMachine.step stored (.recordSpawn session ⟨reads, true⟩) := by
    change session ∈ enforceCap (load ⟨reads, true⟩ stored ++ [session])
    rw [mem_enforceCap hrunning]
    exact List.mem_append_right _ List.mem_cons_self
  rw [Machine.run_append, Machine.run_cons, hlater, and_iff_right (hrecorded _)]

def coderSession : SubagentSession :=
  ⟨"coder", "simard-engineer-coder", "vm-1", 7, 100, none, "goal-1"⟩

theorem coderSession_listed : coderSession ∈ registryMachine.run []
    ([] ++ .recordSpawn coderSession ⟨true, true⟩ ::
      [.gcWithRetention (· = "simard-engineer-coder") 200 86400 ⟨true, true⟩,
        .recordSpawn { coderSession with pid := 8 } ⟨false, false⟩]) := by
  refine (recorded_session_listed_iff rfl [] _ true ?_).mpr ?_
  · refine List.forall_mem_cons.mpr ⟨fun _ h => ?_, List.forall_mem_singleton.mpr fun _ h => ?_⟩
    · cases h
    · exact absurd (RegistryEvent.recordSpawn.inj h).1 (by decide)
  · refine List.forall_mem_cons.mpr ⟨fun _ => ⟨rfl, rfl⟩, List.forall_mem_singleton.mpr fun h => ?_⟩
    cases h

def runningCount (sessions : List SubagentSession) : Nat := sessions.countP (!·.endedAt.isSome)

/-- What a full registry leaves out of a list: the sessions that ended first. -/
structure DropsFirstEnded (sessions kept dropped : List SubagentSession) : Prop where
  perm : (kept ++ dropped).Perm sessions
  ordered : kept.Sublist sessions
  needed : dropped ≠ [] → maxSessions ≤ kept.length
  ended : ∀ gone ∈ dropped, gone.endedAt.isSome = true
  first : ∀ gone ∈ dropped, ∀ left ∈ kept, left.endedAt.isSome = true →
    gone.endedAt.getD (2 ^ 63 - 1) ≤ left.endedAt.getD (2 ^ 63 - 1)

theorem enforceCap_spec (sessions : List SubagentSession) :
    (enforceCap sessions).length ≤ max maxSessions (runningCount (enforceCap sessions)) ∧
      ∃ dropped, DropsFirstEnded sessions (enforceCap sessions) dropped := by
  obtain ⟨dropped, hperm, hordered, hfull, hlength, hended, hfirst⟩ :=
    keepWithin_spec (fun session : SubagentSession => session.endedAt.isSome)
      (fun session => session.endedAt.getD (2 ^ 63 - 1)) maxSessions sessions
  refine ⟨hlength, dropped, hperm, hordered, fun hany => ?_, hended, hfirst⟩
  exact (le_max_left _ _).trans_eq (hfull hany).symm

theorem length_swept (alive : String → Bool) (now retentionSecs : Int)
    (stored : List SubagentSession) :
    ((stored.map (markEnded alive now)).filter (isRetained now retentionSecs)).length ≤
      stored.length :=
  (List.length_filter_le _ _).trans (List.length_map _).le

theorem length_load (access : Access) (stored : List SubagentSession) :
    (load access stored).length ≤ stored.length := by
  unfold load
  split
  · exact le_refl _
  · exact Nat.zero_le _

theorem length_step {bound : Nat} (hbound : maxSessions ≤ bound) {event : RegistryEvent}
    (hrunning : runningCount (registryMachine.step stored event) ≤ bound)
    (h : stored.length ≤ bound) :
    (registryMachine.step stored event).length ≤ bound := by
  unfold registryMachine at hrunning ⊢
  dsimp only at hrunning ⊢
  split at hrunning
  next hsaves =>
    rw [if_pos hsaves]
    cases event with
    | recordSpawn session access =>
      exact (enforceCap_spec _).1.trans (max_le hbound hrunning)
    | gcWithRetention alive now retentionSecs access =>
      exact (length_swept _ _ _ _).trans ((length_load _ _).trans h)
  next hsaves =>
    rw [if_neg hsaves]
    exact h

/-- Where no more than so many sessions run at any time of a run, the registry never holds more than
that, or its bound, and a spawn that is saved drops sessions only at the bound, and then those that
ended first. -/
theorem registry_stays_bounded {bound : Nat} (hbound : maxSessions ≤ bound)
    {events : List RegistryEvent}
    (hrunning : ∀ t ∈ registryMachine.trace [] events, runningCount t.after ≤ bound) :
    ∀ t ∈ registryMachine.trace [] events, t.after.length ≤ bound ∧
      ∀ session access, t.event = .recordSpawn session access → access.saves = true →
        ∃ dropped, DropsFirstEnded (load access t.before ++ [session]) t.after dropped := by
  have hlength (stored : List SubagentSession) (h : stored.length ≤ bound) :
      (∀ t ∈ registryMachine.trace stored events, runningCount t.after ≤ bound) →
        ∀ t ∈ registryMachine.trace stored events, t.after.length ≤ bound := by
    clear hrunning
    induction events generalizing stored with
    | nil => exact fun _ => List.forall_mem_nil _
    | cons event events ih =>
      intro hrunning
      rw [Machine.trace, List.forall_mem_cons] at hrunning ⊢
      have hstep := length_step hbound hrunning.1 h
      exact ⟨hstep, ih _ hstep hrunning.2⟩
  intro t ht
  refine ⟨hlength [] (Nat.zero_le _) hrunning t ht, ?_⟩
  rintro session access hevent hsaves
  obtain ⟨-, -, -, -, hafter⟩ := Machine.mem_trace _ ht
  rw [hafter, hevent]
  change ∃ dropped, DropsFirstEnded _ (if access.saves then _ else _) dropped
  rw [if_pos hsaves]
  exact (enforceCap_spec _).2

def spawnsOf (sessions : List SubagentSession) : List RegistryEvent :=
  sessions.map (.recordSpawn · ⟨true, true⟩)

def sweepAt (now : Int) : RegistryEvent :=
  .gcWithRetention (fun _ => false) now retentionSeconds ⟨true, true⟩

theorem run_spawnsOf {sessions : List SubagentSession}
    (h : stored.length + sessions.length ≤ maxSessions) :
    registryMachine.run stored (spawnsOf sessions) = stored ++ sessions := by
  induction sessions generalizing stored with
  | nil => exact (List.append_nil _).symm
  | cons session sessions ih =>
    rw [List.length_cons] at h
    have hlength : (stored ++ [session]).length = stored.length + 1 := List.length_append
    have hfits : (stored ++ [session]).length ≤ maxSessions := by omega
    have hstep : registryMachine.step stored (.recordSpawn session ⟨true, true⟩) =
        stored ++ [session] := if_pos hfits
    rw [spawnsOf, List.map_cons, Machine.run_cons, hstep]
    rw [← spawnsOf, ih (by omega), List.append_assoc, List.singleton_append]

theorem step_sweepAt {ended running : List SubagentSession} {now : Int}
    (hended : ∀ session ∈ ended, session.endedAt.isSome = true)
    (hretained : ∀ session ∈ ended, isRetained now retentionSeconds session = true)
    (hrunning : ∀ session ∈ running, session.endedAt = none) :
    registryMachine.step (ended ++ running) (sweepAt now) =
      ended ++ running.map fun session => { session with endedAt := some now } := by
  have hkeep : ended.map (markEnded (fun _ => false) now) = ended := by
    refine List.map_congr_left (fun session h => if_pos (hended session h)) |>.trans ?_
    exact List.map_id' ended
  have hmark : running.map (markEnded (fun _ => false) now) =
      running.map fun session => { session with endedAt := some now } := by
    refine List.map_congr_left fun session h => ?_
    simp [markEnded, hrunning session h]
  change ((ended ++ running).map (markEnded (fun _ => false) now)).filter
    (isRetained now retentionSeconds) = _
  rw [List.map_append, hkeep, hmark, List.filter_append, List.filter_eq_self.mpr hretained]
  refine congrArg (ended ++ ·) (List.filter_eq_self.mpr ?_)
  rw [List.forall_mem_map]
  exact fun session _ => decide_eq_true (by rw [Int.sub_self]; decide)

theorem run_wave {ended running : List SubagentSession} {now : Int}
    (hlength : ended.length + running.length ≤ maxSessions)
    (hended : ∀ session ∈ ended, session.endedAt.isSome = true)
    (hretained : ∀ session ∈ ended, isRetained now retentionSeconds session = true)
    (hrunning : ∀ session ∈ running, session.endedAt = none) :
    registryMachine.run ended (spawnsOf running ++ [sweepAt now]) =
      ended ++ running.map fun session => { session with endedAt := some now } := by
  rw [Machine.run_append, run_spawnsOf hlength]
  exact step_sweepAt hended hretained hrunning

def RegistryEvent.spawns : RegistryEvent → Nat
  | recordSpawn _ _ => 1
  | gcWithRetention _ _ _ _ => 0

theorem length_step_le (stored : List SubagentSession) (event : RegistryEvent) :
    (registryMachine.step stored event).length ≤ stored.length + event.spawns := by
  have hload := length_load event.access stored
  unfold registryMachine
  dsimp only
  split
  · cases event with
    | recordSpawn session access =>
      obtain ⟨-, dropped, hdrops⟩ := enforceCap_spec (load access stored ++ [session])
      refine hdrops.ordered.length_le.trans ?_
      rw [List.length_append, List.length_singleton]
      exact Nat.add_le_add_right hload 1
    | gcWithRetention alive now retentionSecs access => exact (length_swept _ _ _ _).trans hload
  · exact Nat.le_add_right _ _

theorem length_le_spawns (stored : List SubagentSession) (events : List RegistryEvent) :
    ∀ t ∈ registryMachine.trace stored events,
      t.after.length ≤ stored.length + (events.map (·.spawns)).sum := by
  induction events generalizing stored with
  | nil => exact List.forall_mem_nil _
  | cons event events ih =>
    have hstep := length_step_le stored event
    rw [Machine.trace, List.forall_mem_cons, List.map_cons, List.sum_cons]
    refine ⟨by dsimp only; omega, fun t ht => ?_⟩
    have hlater := ih _ t ht
    omega

def coders (first count : Nat) : List SubagentSession :=
  (List.range' first count).map fun pid => { coderSession with pid := pid }

@[irreducible] def crowding : List RegistryEvent :=
  (spawnsOf (coders 0 200) ++ [sweepAt 200]) ++ (spawnsOf (coders 200 200) ++ [sweepAt 300]) ++
    spawnsOf (coders 400 100)

@[irreducible] def crowded : List SubagentSession :=
  (coders 0 200).map (fun session => { session with endedAt := some 200 }) ++
    (coders 200 200).map (fun session => { session with endedAt := some 300 }) ++ coders 400 100

theorem run_crowding : registryMachine.run [] crowding = crowded := by
  have hrunning (first count : Nat) : ∀ session ∈ coders first count, session.endedAt = none := by
    unfold coders
    rw [List.forall_mem_map]
    exact fun _ _ => rfl
  have hlength (first count : Nat) : (coders first count).length = count := by simp [coders]
  have hcap : maxSessions = 500 := rfl
  have hfirst := @run_wave [] (coders 0 200) 200 (by rw [hlength, hcap]; decide)
    (List.forall_mem_nil _) (List.forall_mem_nil _) (hrunning 0 200)
  unfold crowding crowded
  rw [Machine.run_append, Machine.run_append, hfirst, List.nil_append,
    run_wave (by simp [hlength, hcap]) (by simp) (by simp [isRetained, retentionSeconds])
      (hrunning 200 200),
    run_spawnsOf (by simp [hlength, hcap])]

theorem crowded_registry_bounded :
    (registryMachine.run [] (crowding ++ [.recordSpawn coderSession ⟨true, true⟩])).length ≤ 500 ∧
      ∃ dropped, dropped ≠ [] ∧ DropsFirstEnded (crowded ++ [coderSession])
        (registryMachine.run [] (crowding ++ [.recordSpawn coderSession ⟨true, true⟩]))
          dropped := by
  have hlast : registryMachine.run [] (crowding ++ [.recordSpawn coderSession ⟨true, true⟩]) =
      enforceCap (crowded ++ [coderSession]) := by
    rw [Machine.run_append, run_crowding]
    rfl
  have hrunning : ∀ t ∈ registryMachine.trace [] (crowding ++
      [.recordSpawn coderSession ⟨true, true⟩]), runningCount t.after ≤ maxSessions := by
    rw [Machine.trace_append, run_crowding, List.forall_mem_append]
    constructor
    · intro t ht
      have hspawns : (crowding.map (·.spawns)).sum = maxSessions := by decide +kernel
      have hlength := length_le_spawns [] crowding t ht
      rw [hspawns, List.length_nil, Nat.zero_add] at hlength
      exact List.countP_le_length.trans hlength
    · refine List.forall_mem_singleton.mpr ?_
      obtain ⟨-, dropped, hdrops⟩ := enforceCap_spec (crowded ++ [coderSession])
      have hcount : runningCount (crowded ++ [coderSession]) ≤ maxSessions := by decide +kernel
      exact hdrops.ordered.countP_le.trans hcount
  have hbounded := @registry_stays_bounded maxSessions le_rfl
    (crowding ++ [.recordSpawn coderSession ⟨true, true⟩]) hrunning
    ⟨crowded, .recordSpawn coderSession ⟨true, true⟩, enforceCap (crowded ++ [coderSession])⟩ (by
      rw [Machine.trace_append, run_crowding]
      exact List.mem_append_right _ List.mem_cons_self)
  rw [hlast]
  obtain ⟨dropped, hdrops⟩ := hbounded.2 _ _ rfl rfl
  refine ⟨hbounded.1, dropped, ?_, hdrops⟩
  rintro rfl
  have hcrowded : (crowded ++ [coderSession]).length = 501 := by simp [crowded, coders]
  have hkept : (enforceCap (crowded ++ [coderSession]) ++ []).length = 501 :=
    hdrops.perm.length_eq.trans hcrowded
  have hbound : (enforceCap (crowded ++ [coderSession])).length ≤ 500 := hbounded.1
  rw [List.append_nil] at hkept
  omega

end Simard.Engineers
