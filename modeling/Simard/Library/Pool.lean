import Simard.Library.Machine
import Simard.Library.Program

/-! A pool of threads over one shared state. Each thread is a program and what it
has been answered so far; one event starts a thread or lets one of them carry out
its next command, so a run is any interleaving, and a thread that is never
advanced again has been interrupted. -/
namespace Simard.Library

/-- A command a program issued, with the answer it got. -/
structure Exchange (Cmd : Type) (Ans : Cmd → Type) where
  cmd : Cmd
  answer : Ans cmd

structure Thread (Cmd : Type) (Ans : Cmd → Type) (α : Type) where
  program : Program Cmd Ans α
  past : List (Exchange Cmd Ans)

structure Pool (σ Cmd : Type) (Ans : Cmd → Type) (α : Type) where
  shared : σ
  threads : List (Thread Cmd Ans α)

namespace Pool

inductive Event (Job ο : Type) where
  | start (job : Job)
  | advance (index : Nat) (oracle : ο)

/-- How jobs become programs and how commands act on the shared state. -/
structure Host (σ Job ο Cmd : Type) (Ans : Cmd → Type) (α : Type) where
  program : Job → Program Cmd Ans α
  answer : σ → ο → (cmd : Cmd) → Ans cmd × σ

variable {σ Job ο Cmd : Type} {Ans : Cmd → Type} {α : Type}

def init (s : σ) : Pool σ Cmd Ans α := ⟨s, []⟩

namespace Host

variable (host : Host σ Job ο Cmd Ans α)

def step (pool : Pool σ Cmd Ans α) : Event Job ο → Pool σ Cmd Ans α
  | .start job => { pool with threads := pool.threads ++ [⟨host.program job, []⟩] }
  | .advance index oracle =>
      match pool.threads[index]? with
      | some ⟨.step cmd next, past⟩ =>
          let (answer, shared) := host.answer pool.shared oracle cmd
          ⟨shared, pool.threads.set index ⟨next answer, past ++ [⟨cmd, answer⟩]⟩⟩
      | _ => pool

def machine : Machine (Pool σ Cmd Ans α) (Event Job ο) := ⟨host.step⟩

end Host

def returned (pool : Pool σ Cmd Ans α) (index : Nat) : Option α :=
  (pool.threads[index]?).bind (·.program.result?)

/-- The command an event lets a thread carry out. -/
def issued (pool : Pool σ Cmd Ans α) : Event Job ο → Option (ο × Cmd)
  | .start _ => none
  | .advance index oracle =>
      match pool.threads[index]? with
      | some ⟨.step cmd _, _⟩ => some (oracle, cmd)
      | _ => none

theorem Host.step_cases (host : Host σ Job ο Cmd Ans α) (pool : Pool σ Cmd Ans α)
    (event : Event Job ο) :
    (∃ job, event = .start job ∧ host.step pool event =
      { pool with threads := pool.threads ++ [⟨host.program job, []⟩] }) ∨
    (pool.issued event = none ∧ host.step pool event = pool) ∨
    (∃ index oracle cmd next past, event = .advance index oracle ∧
      pool.threads[index]? = some ⟨.step cmd next, past⟩ ∧
      pool.issued event = some (oracle, cmd) ∧
      host.step pool event =
        ⟨(host.answer pool.shared oracle cmd).2, pool.threads.set index
          ⟨next (host.answer pool.shared oracle cmd).1,
            past ++ [⟨cmd, (host.answer pool.shared oracle cmd).1⟩]⟩⟩) := by
  cases event with
  | start job => exact .inl ⟨job, rfl, rfl⟩
  | advance index oracle =>
    cases hthread : pool.threads[index]? with
    | none =>
      refine .inr (.inl ⟨?_, ?_⟩)
      · simp [issued, hthread]
      · simp [step, hthread]
    | some thread =>
      obtain ⟨program, past⟩ := thread
      cases program with
      | done value =>
        refine .inr (.inl ⟨?_, ?_⟩)
        · simp [issued, hthread]
        · simp [step, hthread]
      | step cmd next =>
        refine .inr (.inr ⟨index, oracle, cmd, next, past, rfl, hthread, ?_, ?_⟩)
        · simp [issued, hthread]
        · simp [Host.step, hthread]

theorem issued_eq_some {pool : Pool σ Cmd Ans α} {event : Event Job ο} {oracle : ο} {cmd : Cmd}
    (h : pool.issued event = some (oracle, cmd)) :
    ∃ index next past, event = .advance index oracle ∧
      pool.threads[index]? = some ⟨.step cmd next, past⟩ := by
  unfold issued at h
  split at h
  · cases h
  · split at h
    next hthread =>
      cases h
      exact ⟨_, _, _, rfl, hthread⟩
    next => cases h

theorem Host.thread_step (host : Host σ Job ο Cmd Ans α) {pool : Pool σ Cmd Ans α}
    {event : Event Job ο} {index : Nat} {thread : Thread Cmd Ans α}
    (h : (host.step pool event).threads[index]? = some thread) :
    pool.threads[index]? = some thread ∨ thread.past = [] ∨
      ∃ oracle cmd next past, event = .advance index oracle ∧
        pool.threads[index]? = some ⟨.step cmd next, past⟩ ∧
        thread = ⟨next (host.answer pool.shared oracle cmd).1,
          past ++ [⟨cmd, (host.answer pool.shared oracle cmd).1⟩]⟩ := by
  rcases host.step_cases pool event with
    ⟨job, -, hstep⟩ | ⟨-, hstep⟩ | ⟨moved, oracle, cmd, next, past, rfl, hthread, -, hstep⟩
  · rw [hstep, List.getElem?_append] at h
    split at h
    · exact .inl h
    · rw [List.mem_singleton.mp (List.mem_of_getElem? h)]
      exact .inr (.inl rfl)
  · rw [hstep] at h
    exact .inl h
  · rw [hstep, List.getElem?_set] at h
    split at h
    next heq =>
      subst heq
      split at h
      · cases h
        exact .inr (.inr ⟨oracle, cmd, next, past, rfl, hthread, rfl⟩)
      · cases h
    next => exact .inl h

theorem Host.step_shared (host : Host σ Job ο Cmd Ans α) (pool : Pool σ Cmd Ans α)
    (event : Event Job ο) :
    (host.step pool event).shared =
      match pool.issued event with
      | some (oracle, cmd) => (host.answer pool.shared oracle cmd).2
      | none => pool.shared := by
  rcases host.step_cases pool event with
    ⟨job, rfl, hstep⟩ | ⟨hissued, hstep⟩ | ⟨_, _, _, _, _, -, -, hissued, hstep⟩
  · rw [hstep]
    rfl
  · rw [hstep, hissued]
  · rw [hstep, hissued]

theorem Host.shared_invariant (host : Host σ Job ο Cmd Ans α) {P : σ → Prop}
    (hanswer : ∀ s oracle cmd, P s → P (host.answer s oracle cmd).2)
    {pool : Pool σ Cmd Ans α} (h : P pool.shared) (events : List (Event Job ο)) :
    P (host.machine.run pool events).shared := by
  apply Machine.invariant_run (P := fun pool => P pool.shared) host.machine
  · intro pool event hpool
    change P (host.step pool event).shared
    rw [host.step_shared]
    split
    · exact hanswer _ _ _ hpool
    · exact hpool
  · exact h

section Follow

variable {γ : Type} (protocol : Protocol Cmd Ans γ) (start : γ)

def ghost (past : List (Exchange Cmd Ans)) : γ :=
  past.foldl (fun g exchange => protocol.next g exchange.cmd exchange.answer) start

@[simp] theorem ghost_nil : ghost protocol start [] = start := rfl

@[simp] theorem ghost_append (past : List (Exchange Cmd Ans)) (exchange : Exchange Cmd Ans) :
    ghost protocol start (past ++ [exchange]) =
      protocol.next (ghost protocol start past) exchange.cmd exchange.answer := by
  simp [ghost]

def Following (post : γ → α → Prop) (pool : Pool σ Cmd Ans α) : Prop :=
  ∀ thread ∈ pool.threads,
    thread.program.Follows protocol post (ghost protocol start thread.past)

variable {protocol start} {post : γ → α → Prop}

theorem following_init (s : σ) :
    Following protocol start post (init s : Pool σ Cmd Ans α) := by
  intro thread hthread
  cases hthread

theorem Host.following_step (host : Host σ Job ο Cmd Ans α)
    (hprogram : ∀ job, (host.program job).Follows protocol post start)
    (pool : Pool σ Cmd Ans α) (event : Event Job ο) (h : Following protocol start post pool) :
    Following protocol start post (host.step pool event) := by
  rcases host.step_cases pool event with
    ⟨job, -, hstep⟩ | ⟨-, hstep⟩ | ⟨index, oracle, cmd, next, past, -, hthread, -, hstep⟩
  · rw [hstep]
    intro thread hmem
    rcases List.mem_append.mp hmem with hmem | hmem
    · exact h thread hmem
    · rw [List.mem_singleton.mp hmem]
      exact hprogram job
  · rw [hstep]
    exact h
  · rw [hstep]
    intro thread hmem
    rcases List.mem_or_eq_of_mem_set hmem with hmem | rfl
    · exact h thread hmem
    · have hfollows := h _ (List.mem_of_getElem? hthread)
      rw [ghost_append]
      exact hfollows.2 _

theorem Host.following_run (host : Host σ Job ο Cmd Ans α)
    (hprogram : ∀ job, (host.program job).Follows protocol post start)
    {pool : Pool σ Cmd Ans α} (h : Following protocol start post pool)
    (events : List (Event Job ο)) :
    Following protocol start post (host.machine.run pool events) :=
  Machine.invariant_run host.machine (host.following_step hprogram) h events

theorem Following.allowed {pool : Pool σ Cmd Ans α} (h : Following protocol start post pool)
    {index : Nat} {cmd : Cmd} {next : Ans cmd → Program Cmd Ans α}
    {past : List (Exchange Cmd Ans)}
    (hthread : pool.threads[index]? = some ⟨.step cmd next, past⟩) :
    protocol.allowed (ghost protocol start past) cmd :=
  (h _ (List.mem_of_getElem? hthread)).1

/-- A thread that returns at a step ends where the postcondition holds, after the
answer it just got. -/
theorem Host.following_returned (host : Host σ Job ο Cmd Ans α) {pool : Pool σ Cmd Ans α}
    (h : Following protocol start post pool) {index : Nat} {oracle : ο} {cmd : Cmd} {value : α}
    (hissued : pool.issued (Event.advance index oracle : Event Job ο) = some (oracle, cmd))
    (hvalue : (host.step pool (.advance index oracle)).returned index = some value) :
    ∃ past, post (protocol.next (ghost protocol start past) cmd
      (host.answer pool.shared oracle cmd).1) value := by
  rcases host.step_cases pool (.advance index oracle) with
    ⟨job, hevent, -⟩ | ⟨hnone, -⟩ | ⟨_, _, cmd, next, past, hevent, hthread, hcmd, hstep⟩
  · cases hevent
  · rw [hnone] at hissued
    cases hissued
  · cases hevent
    rw [hcmd] at hissued
    cases hissued
    have hfollows := (h _ (List.mem_of_getElem? hthread)).2 (host.answer pool.shared oracle cmd).1
    obtain ⟨hindex, -⟩ := List.getElem?_eq_some_iff.mp hthread
    rw [hstep] at hvalue
    simp only [returned, List.getElem?_set_self hindex, Option.bind_some] at hvalue
    cases hprogram : next (host.answer pool.shared oracle cmd).1 with
    | step cmd next =>
      rw [hprogram] at hvalue
      cases hvalue
    | done result =>
      rw [hprogram] at hvalue hfollows
      cases hvalue
      exact ⟨past, hfollows⟩

/-- The shared state is sound, and so is what each thread believes about it. -/
def Guarded (protocol : Protocol Cmd Ans γ) (start : γ) (P : σ → Prop) (R : σ → γ → Prop)
    (pool : Pool σ Cmd Ans α) : Prop :=
  P pool.shared ∧ ∀ thread ∈ pool.threads, R pool.shared (ghost protocol start thread.past)

/-- The command an event lets a thread carry out meets a condition there. -/
def permits (protocol : Protocol Cmd Ans γ) (start : γ) (ok : σ → γ → Cmd → Bool)
    (pool : Pool σ Cmd Ans α) : Event Job ο → Bool
  | .start _ => true
  | .advance index _ =>
      match pool.threads[index]? with
      | some ⟨.step cmd _, past⟩ => ok pool.shared (ghost protocol start past) cmd
      | _ => true

/-- Every step of a run meets a condition on the command it carries out. -/
def meets (host : Host σ Job ο Cmd Ans α) (protocol : Protocol Cmd Ans γ) (start : γ)
    (ok : σ → γ → Cmd → Bool) (pool : Pool σ Cmd Ans α) (events : List (Event Job ο)) : Bool :=
  (host.machine.trace pool events).all fun t => permits protocol start ok t.before t.event

theorem permits_of_thread {ok : σ → γ → Cmd → Bool} {pool : Pool σ Cmd Ans α} {index : Nat}
    {oracle : ο} {cmd : Cmd} {next : Ans cmd → Program Cmd Ans α}
    {past : List (Exchange Cmd Ans)}
    (hthread : pool.threads[index]? = some ⟨.step cmd next, past⟩)
    (h : permits protocol start ok pool (.advance index oracle : Event Job ο)) :
    ok pool.shared (ghost protocol start past) cmd := by
  simpa only [permits, hthread] using h

theorem meets_cons {host : Host σ Job ο Cmd Ans α} {ok : σ → γ → Cmd → Bool}
    {pool : Pool σ Cmd Ans α} {event : Event Job ο} {events : List (Event Job ο)} :
    meets host protocol start ok pool (event :: events) ↔
      permits protocol start ok pool event ∧
        meets host protocol start ok (host.step pool event) events := by
  unfold meets
  rw [Machine.trace, List.all_cons, Bool.and_eq_true]
  rfl

theorem meets_append {host : Host σ Job ο Cmd Ans α} {ok : σ → γ → Cmd → Bool}
    {pool : Pool σ Cmd Ans α} {left right : List (Event Job ο)} :
    meets host protocol start ok pool (left ++ right) ↔
      meets host protocol start ok pool left ∧
        meets host protocol start ok (host.machine.run pool left) right := by
  unfold meets
  rw [Machine.trace_append, List.all_append, Bool.and_eq_true]

theorem meets_always (host : Host σ Job ο Cmd Ans α) (pool : Pool σ Cmd Ans α)
    (events : List (Event Job ο)) :
    meets host protocol start (fun _ _ _ => true) pool events := by
  apply List.all_eq_true.mpr
  intro t _
  unfold permits
  split <;> [rfl; (split <;> rfl)]

/-- The invariant rule for guarded pools: a command is only ever carried out where
the protocol allows it, the thread's belief holds and the run permits it. -/
structure GuardRules (host : Host σ Job ο Cmd Ans α) (protocol : Protocol Cmd Ans γ) (start : γ)
    (ok : σ → γ → Cmd → Bool) (P : σ → Prop) (R : σ → γ → Prop) : Prop where
  start : ∀ s, P s → R s start
  shared : ∀ s oracle cmd g, ok s g cmd → P s → R s g → protocol.allowed g cmd →
    P (host.answer s oracle cmd).2
  next : ∀ s oracle cmd g, ok s g cmd → P s → R s g → protocol.allowed g cmd →
    R (host.answer s oracle cmd).2 (protocol.next g cmd (host.answer s oracle cmd).1)
  stable : ∀ s oracle cmd g other, ok s g cmd → P s → R s g → protocol.allowed g cmd →
    R s other → R (host.answer s oracle cmd).2 other

theorem Host.guarded_step (host : Host σ Job ο Cmd Ans α) {ok : σ → γ → Cmd → Bool}
    {P : σ → Prop} {R : σ → γ → Prop} (rules : GuardRules host protocol start ok P R)
    (pool : Pool σ Cmd Ans α) (event : Event Job ο) (hok : permits protocol start ok pool event)
    (hfollowing : Following protocol start post pool) (h : Guarded protocol start P R pool) :
    Guarded protocol start P R (host.step pool event) := by
  rcases host.step_cases pool event with
    ⟨job, -, hstep⟩ | ⟨-, hstep⟩ | ⟨index, oracle, cmd, next, past, rfl, hthread, -, hstep⟩
  · rw [hstep]
    refine ⟨h.1, ?_⟩
    intro thread hmem
    rcases List.mem_append.mp hmem with hmem | hmem
    · exact h.2 thread hmem
    · rw [List.mem_singleton.mp hmem]
      exact rules.start _ h.1
  · rw [hstep]
    exact h
  · have hpermitted := permits_of_thread hthread hok
    have hallowed := hfollowing.allowed hthread
    have hbelief := h.2 _ (List.mem_of_getElem? hthread)
    rw [hstep]
    refine ⟨rules.shared _ oracle cmd _ hpermitted h.1 hbelief hallowed, ?_⟩
    intro thread hmem
    rcases List.mem_or_eq_of_mem_set hmem with hmem | rfl
    · exact rules.stable _ oracle cmd _ _ hpermitted h.1 hbelief hallowed (h.2 thread hmem)
    · rw [ghost_append]
      exact rules.next _ oracle cmd _ hpermitted h.1 hbelief hallowed

theorem Host.guarded_run (host : Host σ Job ο Cmd Ans α) {ok : σ → γ → Cmd → Bool}
    {P : σ → Prop} {R : σ → γ → Prop} (rules : GuardRules host protocol start ok P R)
    (hprogram : ∀ job, (host.program job).Follows protocol post start) {pool : Pool σ Cmd Ans α}
    (hfollowing : Following protocol start post pool) (h : Guarded protocol start P R pool)
    (events : List (Event Job ο)) (hmeets : meets host protocol start ok pool events) :
    Guarded protocol start P R (host.machine.run pool events) := by
  induction events generalizing pool with
  | nil => exact h
  | cons event events ih =>
    obtain ⟨hok, hrest⟩ := meets_cons.mp hmeets
    exact ih (host.following_step hprogram pool event hfollowing)
      (host.guarded_step rules pool event hok hfollowing h) hrest

/-- The invariant rule for one thread, over a shared state that stays as the thread
needs it. -/
theorem Host.thread_run (host : Host σ Job ο Cmd Ans α) {ok : σ → γ → Cmd → Bool} {P : σ → Prop}
    {Q : γ → Prop} (index : Nat) (hstart : Q start)
    (hshared : ∀ s oracle cmd g, ok s g cmd → P s → P (host.answer s oracle cmd).2)
    (hnext : ∀ s oracle cmd g, P s → protocol.allowed g cmd → Q g →
      Q (protocol.next g cmd (host.answer s oracle cmd).1))
    (hprogram : ∀ job, (host.program job).Follows protocol post start) {pool : Pool σ Cmd Ans α}
    (hfollowing : Following protocol start post pool) (hP : P pool.shared)
    (hQ : ∀ thread, pool.threads[index]? = some thread → Q (ghost protocol start thread.past))
    (events : List (Event Job ο)) (hmeets : meets host protocol start ok pool events) :
    P (host.machine.run pool events).shared ∧
      ∀ thread, (host.machine.run pool events).threads[index]? = some thread →
        Q (ghost protocol start thread.past) := by
  induction events generalizing pool with
  | nil => exact ⟨hP, hQ⟩
  | cons event events ih =>
    obtain ⟨hok, hrest⟩ := meets_cons.mp hmeets
    apply ih (host.following_step hprogram pool event hfollowing) _ _ hrest
    · rcases host.step_cases pool event with
        ⟨job, -, hstep⟩ | ⟨-, hstep⟩ | ⟨moved, oracle, cmd, next, past, rfl, hthread, -, hstep⟩
      · rw [hstep]
        exact hP
      · rw [hstep]
        exact hP
      · rw [hstep]
        exact hshared _ oracle cmd _ (permits_of_thread hthread hok) hP
    · intro thread hthread
      rcases host.thread_step hthread with hsame | hfresh |
        ⟨oracle, cmd, next, past, rfl, hbefore, rfl⟩
      · exact hQ thread hsame
      · rw [hfresh]
        exact hstart
      · rw [ghost_append]
        exact hnext _ oracle cmd _ hP (hfollowing.allowed hbefore) (hQ _ hbefore)

theorem guarded_init {P : σ → Prop} {R : σ → γ → Prop} {s : σ} (h : P s) :
    Guarded protocol start P R (init s : Pool σ Cmd Ans α) :=
  ⟨h, fun _ hmem => nomatch hmem⟩

end Follow

section Token

variable {γ : Type} {protocol : Protocol Cmd Ans γ} {start : γ} {post : γ → α → Prop}

def holders (protocol : Protocol Cmd Ans γ) (start : γ) (holds : γ → Bool)
    (pool : Pool σ Cmd Ans α) : Nat :=
  pool.threads.countP fun thread => holds (ghost protocol start thread.past)

def spending (spends : Cmd → Bool) (t : Machine.Transition (Pool σ Cmd Ans α) (Event Job ο)) :
    Bool :=
  (t.before.issued t.event).any fun issued => spends issued.2

/-- What minting, holding and spending a token must obey. -/
structure TokenRules (host : Host σ Job ο Cmd Ans α) (protocol : Protocol Cmd Ans γ) (start : γ)
    (ok : σ → γ → Cmd → Bool) (P : σ → Prop) (holds : γ → Bool) (minted : σ → Bool)
    (spends : Cmd → Bool) : Prop where
  start : holds start = false
  needs : ∀ g cmd, protocol.allowed g cmd → spends cmd → holds g
  spent : ∀ g cmd answer, protocol.allowed g cmd → spends cmd →
    holds (protocol.next g cmd answer) = false
  mint : ∀ s oracle cmd g, P s → ok s g cmd → holds g = false →
    holds (protocol.next g cmd (host.answer s oracle cmd).1) →
      minted s = false ∧ minted (host.answer s oracle cmd).2
  keep : ∀ s oracle cmd, P s → minted s → minted (host.answer s oracle cmd).2
  shared : ∀ s oracle cmd, P s → P (host.answer s oracle cmd).2

theorem holders_pos (protocol : Protocol Cmd Ans γ) (start : γ) (holds : γ → Bool)
    {pool : Pool σ Cmd Ans α} {index : Nat} {thread : Thread Cmd Ans α}
    (hthread : pool.threads[index]? = some thread)
    (hholds : holds (ghost protocol start thread.past)) :
    0 < holders protocol start holds pool :=
  List.countP_pos_iff.mpr ⟨thread, List.mem_of_getElem? hthread, hholds⟩

theorem holders_set (protocol : Protocol Cmd Ans γ) (start : γ) (holds : γ → Bool)
    {pool : Pool σ Cmd Ans α} {index : Nat} {old : Thread Cmd Ans α}
    (hold : pool.threads[index]? = some old) (new : Thread Cmd Ans α) (shared : σ) :
    holders protocol start holds ⟨shared, pool.threads.set index new⟩ +
        (if holds (ghost protocol start old.past) then 1 else 0) =
      holders protocol start holds pool +
        (if holds (ghost protocol start new.past) then 1 else 0) := by
  obtain ⟨hindex, rfl⟩ := List.getElem?_eq_some_iff.mp hold
  have hpos := holders_pos protocol start holds hold
  unfold holders at hpos ⊢
  rw [List.countP_set hindex]
  by_cases h : holds (ghost protocol start pool.threads[index].past)
  · have hone := hpos h
    simp only [h, if_true]
    omega
  · simp only [h, Bool.false_eq_true, if_false]
    omega

theorem Host.tokens_step (host : Host σ Job ο Cmd Ans α) {ok : σ → γ → Cmd → Bool} {P : σ → Prop}
    {holds : γ → Bool} {minted : σ → Bool} {spends : Cmd → Bool}
    (rules : TokenRules host protocol start ok P holds minted spends) {pool : Pool σ Cmd Ans α}
    (event : Event Job ο) (hfollowing : Following protocol start post pool)
    (hok : permits protocol start ok pool event) (hP : P pool.shared) {spent : Nat}
    (h : spent + holders protocol start holds pool ≤ if minted pool.shared then 1 else 0) :
    (spent + if spending spends ⟨pool, event, host.step pool event⟩ then 1 else 0) +
        holders protocol start holds (host.step pool event) ≤
      if minted (host.step pool event).shared then 1 else 0 := by
  rcases host.step_cases pool event with
    ⟨job, rfl, hstep⟩ | ⟨hissued, hstep⟩ |
      ⟨index, oracle, cmd, next, past, rfl, hthread, hissued, hstep⟩
  · rw [hstep]
    simpa [spending, issued, holders, rules.start] using h
  · rw [hstep]
    simpa [spending, hissued] using h
  · have hmove := holders_set protocol start holds hthread
      ⟨next (host.answer pool.shared oracle cmd).1,
        past ++ [⟨cmd, (host.answer pool.shared oracle cmd).1⟩]⟩
          (host.answer pool.shared oracle cmd).2
    rw [hstep]
    simp only [spending, hissued, Option.any_some]
    simp only [ghost_append] at hmove
    have hallowed := hfollowing.allowed hthread
    have hkeep := rules.keep pool.shared oracle cmd hP
    have hmint := rules.mint pool.shared oracle cmd (ghost protocol start past) hP
      (permits_of_thread hthread hok)
    have hneeds := rules.needs _ cmd hallowed
    have hspent := rules.spent (ghost protocol start past) cmd
      (host.answer pool.shared oracle cmd).1 hallowed
    by_cases hs : spends cmd
    · have hheld := hneeds hs
      have hgone := hspent hs
      simp only [hheld, hgone, if_true, Bool.false_eq_true, if_false] at hmove
      by_cases hm : minted pool.shared
      · simp only [hm, if_true] at h
        simp only [hs, hkeep hm, if_true]
        omega
      · simp only [hm, Bool.false_eq_true, if_false] at h
        omega
    · simp only [hs, Bool.false_eq_true, if_false]
      by_cases hbefore : holds (ghost protocol start past)
      · have hpos := holders_pos protocol start holds hthread hbefore
        simp only [hbefore, if_true] at hmove
        by_cases hm : minted pool.shared
        · simp only [hm, if_true] at h
          simp only [hkeep hm, if_true]
          split at hmove <;> omega
        · simp only [hm, Bool.false_eq_true, if_false] at h
          omega
      · simp only [hbefore, Bool.false_eq_true, if_false] at hmove
        by_cases hafter : holds (protocol.next (ghost protocol start past) cmd
            (host.answer pool.shared oracle cmd).1)
        · obtain ⟨hfree, hminted⟩ := hmint (by simpa using hbefore) hafter
          simp only [hfree, Bool.false_eq_true, if_false] at h
          simp only [hafter, if_true] at hmove
          simp only [hminted, if_true]
          omega
        · simp only [hafter, Bool.false_eq_true, if_false] at hmove
          by_cases hm : minted pool.shared
          · simp only [hm, if_true] at h
            simp only [hkeep hm, if_true]
            omega
          · simp only [hm, Bool.false_eq_true, if_false] at h
            omega

theorem Host.spends_at_most_once (host : Host σ Job ο Cmd Ans α) {ok : σ → γ → Cmd → Bool}
    {P : σ → Prop} {holds : γ → Bool} {minted : σ → Bool} {spends : Cmd → Bool}
    (rules : TokenRules host protocol start ok P holds minted spends)
    (hprogram : ∀ job, (host.program job).Follows protocol post start) {s : σ} (hs : P s)
    (events : List (Event Job ο)) (hmeets : meets host protocol start ok (init s) events) :
    (host.machine.trace (init s) events).countP (spending spends) ≤ 1 := by
  have hrun (pool : Pool σ Cmd Ans α) (spent : Nat) (events : List (Event Job ο))
      (hfollowing : Following protocol start post pool) (hP : P pool.shared)
      (hmeets : meets host protocol start ok pool events)
      (h : spent + holders protocol start holds pool ≤ if minted pool.shared then 1 else 0) :
      spent + (host.machine.trace pool events).countP (spending spends) ≤ 1 := by
    induction events generalizing pool spent with
    | nil =>
      simp only [Machine.trace, List.countP_nil]
      split at h <;> omega
    | cons event events ih =>
      rw [Machine.trace, List.countP_cons]
      obtain ⟨hok, hlater⟩ := meets_cons.mp hmeets
      have hnext := host.tokens_step rules event hfollowing hok hP h
      have hshared : P (host.step pool event).shared :=
        host.shared_invariant rules.shared hP [event]
      have hrest := ih (host.step pool event) _ (host.following_step hprogram pool event hfollowing)
        hshared hlater hnext
      change spent + ((host.machine.trace (host.step pool event) events).countP (spending spends) +
        if spending spends ⟨pool, event, host.step pool event⟩ then 1 else 0) ≤ 1
      omega
  have h := hrun (init s) 0 events (following_init s) hs hmeets (by simp [holders, init])
  omega

end Token

end Pool

end Simard.Library
