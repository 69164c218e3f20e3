import Simard.Memory.OpenGuard

/-! The invariant of the open guard: what each place of an opener counts on is there, whoever
else moves. One lemma for each kind of step; the lookups that clear a dead entry come first. -/
namespace Simard.Memory
open Simard.Library

namespace Place

variable {δ : Type} {place : Place δ} {lock : LockFd δ}

def names (place : Place δ) : Option (LockFd δ) := place.shares <|> place.owns

theorem names_iff : place.names = some lock ↔
    place.shares = some lock ∨ place.owns = some lock := by
  cases place <;> simp [names, shares, owns]

theorem names_of_shares (h : place.shares = some lock) : place.names = some lock :=
  names_iff.mpr (.inl h)

theorem names_of_owns (h : place.owns = some lock) : place.names = some lock :=
  names_iff.mpr (.inr h)

theorem names_of_keeps (h : place.keeps = some lock) : place.names = some lock := by
  cases place <;> cases h <;> rfl

theorem owns_of_registering (h : place.registering = some lock) : place.owns = some lock := by
  cases place <;> cases h <;> rfl

theorem keeps_of_shares (h : place.shares = some lock) : place.keeps = some lock := by
  cases place <;> cases h <;> rfl

theorem not_owns_of_shares (h : place.shares = some lock) : place.owns = none := by
  cases place <;> cases h <;> rfl

end Place

namespace OpenHost

variable {ρ δ : Type} (canonicalize : ρ → δ)

/-- A lock that is counted on is held and one that is shared is registered; a file in one
opener's hands alone is named by no other; whoever is in a registry found no entry there. -/
structure Held (host : OpenHost ρ δ) : Prop where
  file {i : Nat} {opener : Opener ρ δ} {lock : LockFd δ} :
    host.openers[i]? = some opener → opener.place.names = some lock →
      lock.pid = opener.pid ∧ lock.dir = canonicalize opener.root ∧ lock.number < host.nextFd
  kept {i : Nat} {opener : Opener ρ δ} {lock : LockFd δ} :
    host.openers[i]? = some opener → opener.place.keeps = some lock →
      host.flock lock.dir = some lock
  entered {i : Nat} {opener : Opener ρ δ} {lock : LockFd δ} :
    host.openers[i]? = some opener → opener.place.shares = some lock →
      host.registry lock.pid lock.dir = some lock
  alone {i : Nat} {opener : Opener ρ δ} {file : LockFd δ} :
    host.openers[i]? = some opener → opener.place.registering = some file →
      host.mutex opener.pid = some i ∧ host.registry file.pid file.dir = none
  apart {i j : Nat} {opener other : Opener ρ δ} {lock : LockFd δ} :
    host.openers[i]? = some opener → host.openers[j]? = some other → j ≠ i →
      opener.place.owns = some lock → other.place.names ≠ some lock
  holder {dir : δ} {lock : LockFd δ} :
    host.flock dir = some lock → lock.dir = dir ∧
      ∃ (i : Nat) (opener : Opener ρ δ), host.openers[i]? = some opener ∧
        opener.place.keeps = some lock
  entry {pid : Nat} {dir : δ} {lock : LockFd δ} :
    host.registry pid dir = some lock → lock.pid = pid ∧ lock.dir = dir
  inside {pid i : Nat} :
    host.mutex pid = some i → ∃ (opener : Opener ρ δ) (file : LockFd δ),
      host.openers[i]? = some opener ∧ opener.pid = pid ∧ opener.place.registering = some file

theorem held_empty : (empty : OpenHost ρ δ).Held canonicalize := by
  constructor <;> simp [empty]

/-- One opener moves on, and what else changes leaves the others what they count on. -/
structure Moves (host next : OpenHost ρ δ) (index : Nat) (opener : Opener ρ δ)
    (place : Place δ) : Prop where
  openers : next.openers = host.openers.set index { opener with place }
  nextFd : host.nextFd ≤ next.nextFd
  file {lock : LockFd δ} : place.names = some lock →
    lock.pid = opener.pid ∧ lock.dir = canonicalize opener.root ∧ lock.number < next.nextFd
  kept {lock : LockFd δ} : place.keeps = some lock → next.flock lock.dir = some lock
  entered {lock : LockFd δ} : place.shares = some lock →
    next.registry lock.pid lock.dir = some lock
  alone {file : LockFd δ} : place.registering = some file →
    next.mutex opener.pid = some index ∧ next.registry file.pid file.dir = none
  owned {j : Nat} {other : Opener ρ δ} {lock : LockFd δ} :
    host.openers[j]? = some other → j ≠ index → place.owns = some lock →
      other.place.names ≠ some lock
  named {j : Nat} {other : Opener ρ δ} {lock : LockFd δ} :
    host.openers[j]? = some other → j ≠ index → other.place.owns = some lock →
      place.names ≠ some lock
  flock {j : Nat} {other : Opener ρ δ} {lock : LockFd δ} :
    host.openers[j]? = some other → j ≠ index → other.place.keeps = some lock →
      next.flock lock.dir = some lock
  registry {j : Nat} {other : Opener ρ δ} {lock : LockFd δ} :
    host.openers[j]? = some other → j ≠ index → other.place.shares = some lock →
      next.registry lock.pid lock.dir = some lock
  mutex {j : Nat} {other : Opener ρ δ} {file : LockFd δ} :
    host.openers[j]? = some other → j ≠ index → other.place.registering = some file →
      next.mutex other.pid = some j ∧ next.registry file.pid file.dir = none
  holder {dir : δ} {lock : LockFd δ} : next.flock dir = some lock → lock.dir = dir ∧
    (place.keeps = some lock ∨
      ∃ (j : Nat) (other : Opener ρ δ), host.openers[j]? = some other ∧ j ≠ index ∧
        other.place.keeps = some lock)
  entry {pid : Nat} {dir : δ} {lock : LockFd δ} :
    next.registry pid dir = some lock → lock.pid = pid ∧ lock.dir = dir
  inside {pid j : Nat} : next.mutex pid = some j →
    (j = index ∧ opener.pid = pid ∧ ∃ file, place.registering = some file) ∨
      j ≠ index ∧ host.mutex pid = some j

section Moving

variable {canonicalize} {host next : OpenHost ρ δ} {index : Nat} {opener : Opener ρ δ}
  {place : Place δ}

theorem Held.holder_other (hheld : host.Held canonicalize)
    (hi : host.openers[index]? = some opener) {dir : δ} {lock : LockFd δ}
    (hkeeps : opener.place.keeps ≠ some lock) (h : host.flock dir = some lock) :
    lock.dir = dir ∧ ∃ (j : Nat) (other : Opener ρ δ), host.openers[j]? = some other ∧
      j ≠ index ∧ other.place.keeps = some lock := by
  obtain ⟨hdir, j, other, hj, hother⟩ := hheld.holder h
  refine ⟨hdir, j, other, hj, ?_, hother⟩
  rintro rfl
  rw [hi, Option.some.injEq] at hj
  exact hkeeps (hj ▸ hother)

theorem Held.inside_ne (hheld : host.Held canonicalize)
    (hi : host.openers[index]? = some opener) (hplace : opener.place.registering = none)
    {pid j : Nat} (h : host.mutex pid = some j) : j ≠ index := by
  rintro rfl
  obtain ⟨other, file, hj, -, hregistering⟩ := hheld.inside h
  rw [hi, Option.some.injEq] at hj
  rw [← hj, hplace] at hregistering
  cases hregistering

theorem Moves.getElem?_self (h : host.Moves canonicalize next index opener place)
    (hi : host.openers[index]? = some opener) :
    next.openers[index]? = some { opener with place } := by
  rw [h.openers, List.getElem?_set_self' , hi]
  rfl

theorem Moves.getElem?_of_ne (h : host.Moves canonicalize next index opener place) {j : Nat}
    (hj : j ≠ index) : next.openers[j]? = host.openers[j]? := by
  rw [h.openers, List.getElem?_set_ne hj.symm]

theorem Moves.cases (h : host.Moves canonicalize next index opener place)
    (hi : host.openers[index]? = some opener) {j : Nat} {other : Opener ρ δ}
    (hj : next.openers[j]? = some other) :
    (j = index ∧ other = { opener with place }) ∨
      j ≠ index ∧ host.openers[j]? = some other := by
  by_cases heq : j = index
  · subst heq
    rw [h.getElem?_self hi, Option.some.injEq] at hj
    exact .inl ⟨rfl, hj.symm⟩
  · rw [h.getElem?_of_ne heq] at hj
    exact .inr ⟨heq, hj⟩

theorem Held.moved (hheld : host.Held canonicalize)
    (hi : host.openers[index]? = some opener) (place : Place δ)
    (h : host.Moves canonicalize next index opener place) : next.Held canonicalize where
  file hj hnames := by
    obtain ⟨rfl, rfl⟩ | ⟨-, hj⟩ := h.cases hi hj
    · exact h.file hnames
    · obtain ⟨hpid, hdir, hnumber⟩ := hheld.file hj hnames
      exact ⟨hpid, hdir, hnumber.trans_le h.nextFd⟩
  kept hj hkeeps := by
    obtain ⟨rfl, rfl⟩ | ⟨hne, hj⟩ := h.cases hi hj
    · exact h.kept hkeeps
    · exact h.flock hj hne hkeeps
  entered hj hshares := by
    obtain ⟨rfl, rfl⟩ | ⟨hne, hj⟩ := h.cases hi hj
    · exact h.entered hshares
    · exact h.registry hj hne hshares
  alone hj hregistering := by
    obtain ⟨rfl, rfl⟩ | ⟨hne, hj⟩ := h.cases hi hj
    · exact h.alone hregistering
    · exact h.mutex hj hne hregistering
  apart hj hk hne howns := by
    obtain ⟨rfl, rfl⟩ | ⟨hnej, hj⟩ := h.cases hi hj
    · obtain ⟨rfl, rfl⟩ | ⟨hnek, hk⟩ := h.cases hi hk
      · exact absurd rfl hne
      · exact h.owned hk hnek howns
    · obtain ⟨rfl, rfl⟩ | ⟨hnek, hk⟩ := h.cases hi hk
      · exact h.named hj hnej howns
      · exact hheld.apart hj hk hne howns
  holder hflock := by
    obtain ⟨hdir, hkeeps | ⟨j, other, hj, hne, hkeeps⟩⟩ := h.holder hflock
    · exact ⟨hdir, index, _, h.getElem?_self hi, hkeeps⟩
    · exact ⟨hdir, j, other, (h.getElem?_of_ne hne).trans hj, hkeeps⟩
  entry := h.entry
  inside hmutex := by
    obtain ⟨rfl, hpid, file, hregistering⟩ | ⟨hne, hmutex⟩ := h.inside hmutex
    · exact ⟨_, file, h.getElem?_self hi, hpid, hregistering⟩
    · obtain ⟨other, file, hj, hpid, hregistering⟩ := hheld.inside hmutex
      exact ⟨other, file, (h.getElem?_of_ne hne).trans hj, hpid, hregistering⟩

theorem Held.opening (hheld : host.Held canonicalize) (hi : host.openers[index]? = some opener)
    (hplace : opener.place = .opening) :
    ({ host.move index opener (.trying ⟨opener.pid, canonicalize opener.root, host.nextFd⟩) with
      nextFd := host.nextFd + 1 } : OpenHost ρ δ).Held canonicalize := by
  have hfresh {j : Nat} {other : Opener ρ δ} (hj : host.openers[j]? = some other) :
      other.place.names ≠ some ⟨opener.pid, canonicalize opener.root, host.nextFd⟩ := by
    intro hnames
    exact absurd (hheld.file hj hnames).2.2 (Nat.lt_irrefl _)
  refine hheld.moved hi (.trying ⟨opener.pid, canonicalize opener.root, host.nextFd⟩) ?_
  exact {
    openers := rfl
    nextFd := Nat.le_succ _
    file := by
      rintro _ ⟨⟩
      exact ⟨rfl, rfl, Nat.lt_succ_self _⟩
    kept := nofun
    entered := nofun
    alone := nofun
    owned := by
      rintro j other _ hj _ ⟨⟩
      exact hfresh hj
    named := by
      rintro j other _ hj _ howns ⟨⟩
      exact hfresh hj (Place.names_of_owns howns)
    flock := fun hj _ h => hheld.kept hj h
    registry := fun hj _ h => hheld.entered hj h
    mutex := fun hj _ h => hheld.alone hj h
    holder := fun h => by
      obtain ⟨hdir, hother⟩ := hheld.holder_other hi (by simp [hplace, Place.keeps]) h
      exact ⟨hdir, .inr hother⟩
    entry := hheld.entry
    inside := fun h => .inr ⟨hheld.inside_ne hi (by rw [hplace]; rfl) h, h⟩ }

theorem Held.inside_taken (hheld : host.Held canonicalize)
    (hi : host.openers[index]? = some opener) {file : LockFd δ}
    (hplace : opener.place = .trying file) (hfree : host.mutex opener.pid = none)
    (hentry : host.registry opener.pid (canonicalize opener.root) = none) :
    ((host.setMutex opener.pid (some index)).move index opener (.inside file)).Held
      canonicalize := by
  have howns : opener.place.owns = some file := by rw [hplace]; rfl
  have hfile := hheld.file hi (Place.names_of_owns howns)
  refine hheld.moved hi (.inside file) ?_
  exact {
    openers := rfl
    nextFd := le_rfl
    file := by
      rintro _ ⟨⟩
      exact hfile
    kept := nofun
    entered := nofun
    alone := by
      rintro _ ⟨⟩
      refine ⟨Function.update_self _ _ _, ?_⟩
      rw [hfile.1, hfile.2.1]
      exact hentry
    owned := by
      rintro j other _ hj hne ⟨⟩
      exact hheld.apart hi hj hne howns
    named := by
      rintro j other _ hj hne hother ⟨⟩
      exact hheld.apart hj hi hne.symm hother (Place.names_of_owns howns)
    flock := fun hj _ h => hheld.kept hj h
    registry := fun hj _ h => hheld.entered hj h
    mutex := by
      intro j other other_file hj hne h
      obtain ⟨hmutex, hnone⟩ := hheld.alone hj h
      refine ⟨?_, hnone⟩
      rw [← hmutex]
      apply Function.update_of_ne
      intro hpid
      rw [hpid, hfree] at hmutex
      cases hmutex
    holder := fun h => by
      obtain ⟨hdir, hother⟩ := hheld.holder_other hi (by simp [hplace, Place.keeps]) h
      exact ⟨hdir, .inr hother⟩
    entry := hheld.entry
    inside := by
      intro pid j h
      simp only [move, setMutex] at h
      rw [Function.update_apply] at h
      split at h
      · next hpid =>
        cases h
        exact .inl ⟨rfl, hpid.symm, file, rfl⟩
      · exact .inr ⟨hheld.inside_ne hi (by rw [hplace]; rfl) h, h⟩ }

theorem Held.inside_left (hheld : host.Held canonicalize)
    (hi : host.openers[index]? = some opener) {file : LockFd δ}
    (hplace : opener.place = .inside file) (hkeeps : place.keeps = none)
    (hshares : place.shares = none) (hregistering : place.registering = none)
    (howns : place.owns = none ∨ place.owns = some file) :
    ((host.setMutex opener.pid none).move index opener place).Held canonicalize := by
  have howned : opener.place.owns = some file := by rw [hplace]; rfl
  have hmutex := (hheld.alone hi (show _ = some file by rw [hplace]; rfl)).1
  have hnames {lock : LockFd δ} (h : place.names = some lock) : lock = file := by
    rw [Place.names_iff, hshares] at h
    grind
  refine hheld.moved hi place ?_
  exact {
    openers := rfl
    nextFd := le_rfl
    file := fun h => by
      rw [hnames h]
      exact hheld.file hi (Place.names_of_owns howned)
    kept := fun h => by
      rw [hkeeps] at h
      cases h
    entered := fun h => by
      rw [hshares] at h
      cases h
    alone := fun h => by
      rw [hregistering] at h
      cases h
    owned := fun hj hne h => by
      rw [hnames (Place.names_of_owns h)]
      exact hheld.apart hi hj hne howned
    named := fun hj hne hother h => by
      rw [hnames h] at hother
      exact hheld.apart hj hi hne.symm hother (Place.names_of_owns howned)
    flock := fun hj _ h => hheld.kept hj h
    registry := fun hj _ h => hheld.entered hj h
    mutex := by
      intro j other other_file hj hne h
      obtain ⟨hothers, hnone⟩ := hheld.alone hj h
      refine ⟨?_, hnone⟩
      rw [← hothers]
      apply Function.update_of_ne
      intro hpid
      rw [hpid, hmutex, Option.some.injEq] at hothers
      exact hne hothers.symm
    holder := fun h => by
      obtain ⟨hdir, hother⟩ := hheld.holder_other hi (by simp [hplace, Place.keeps]) h
      exact ⟨hdir, .inr hother⟩
    entry := hheld.entry
    inside := by
      intro pid j h
      simp only [move, setMutex] at h
      rw [Function.update_apply] at h
      split at h
      · cases h
      · next hpid =>
        refine .inr ⟨?_, h⟩
        rintro rfl
        obtain ⟨other, _, hj, hother, -⟩ := hheld.inside h
        rw [hi, Option.some.injEq] at hj
        exact hpid (hj ▸ hother.symm) }

end Moving

section Steps

variable [DecidableEq δ] {canonicalize} {host : OpenHost ρ δ} {index : Nat} {opener : Opener ρ δ}

theorem upgrades_iff {lock : LockFd δ} : host.upgrades lock ↔
    ∃ (j : Nat) (other : Opener ρ δ), host.openers[j]? = some other ∧
      other.place.shares = some lock := by
  simp only [upgrades, List.any_eq_true, List.mem_iff_getElem?, decide_eq_true_eq]
  constructor
  · rintro ⟨other, ⟨j, hj⟩, hshares⟩
    exact ⟨j, other, hj, hshares⟩
  · rintro ⟨j, other, hj, hshares⟩
    exact ⟨other, ⟨j, hj⟩, hshares⟩

theorem setEntry_registry (host : OpenHost ρ δ) (pid p : Nat) (dir d : δ)
    (entry : Option (LockFd δ)) :
    (host.setEntry pid dir entry).registry p d =
      if p = pid ∧ d = dir then entry else host.registry p d := by
  by_cases hp : p = pid
  · by_cases hd : d = dir <;> simp [setEntry, hp, hd]
  · simp [setEntry, hp]

theorem Held.setEntry_none (hheld : host.Held canonicalize) {pid : Nat} {dir : δ}
    (hdead : ∀ lock, host.registry pid dir = some lock → ¬ host.upgrades lock) :
    (host.setEntry pid dir none).Held canonicalize where
  file := hheld.file
  kept := hheld.kept
  apart := hheld.apart
  holder := hheld.holder
  inside := hheld.inside
  entered {j other lock} hj hshares := by
    have hentry := hheld.entered hj hshares
    have hlive : host.upgrades lock := upgrades_iff.mpr ⟨j, other, hj, hshares⟩
    rw [setEntry_registry, if_neg]
    · exact hentry
    · rintro ⟨rfl, rfl⟩
      exact hdead lock hentry hlive
  alone {j other file} hj hregistering := by
    obtain ⟨hmutex, hnone⟩ := hheld.alone hj hregistering
    refine ⟨hmutex, ?_⟩
    rw [setEntry_registry, hnone, ite_self]
  entry {p d lock} hentry := by
    rw [setEntry_registry] at hentry
    split at hentry
    · cases hentry
    · exact hheld.entry hentry

theorem liveLockFor_cases (hheld : host.Held canonicalize) (pid : Nat) (dir : δ) :
    (∃ lock, host.liveLockFor pid dir = (some lock, host) ∧ host.registry pid dir = some lock ∧
      host.upgrades lock) ∨
    ∃ next, host.liveLockFor pid dir = (none, next) ∧ next.Held canonicalize ∧
      next.openers = host.openers ∧ next.flock = host.flock ∧ next.mutex = host.mutex ∧
      next.nextFd = host.nextFd ∧ next.registry pid dir = none := by
  unfold liveLockFor
  cases hentry : host.registry pid dir with
  | none => exact .inr ⟨host, rfl, hheld, rfl, rfl, rfl, rfl, hentry⟩
  | some lock =>
    by_cases hlive : host.upgrades lock
    · exact .inl ⟨lock, by simp [hlive], rfl, hlive⟩
    · refine .inr ⟨host.setEntry pid dir none, by simp [hlive], hheld.setEntry_none ?_,
        rfl, rfl, rfl, rfl, by simp [setEntry]⟩
      intro other hother
      rw [hentry, Option.some.injEq] at hother
      rwa [← hother]

theorem Held.not_owned_of_upgrades (hheld : host.Held canonicalize) {lock : LockFd δ}
    (hlive : host.upgrades lock) {j : Nat} {other : Opener ρ δ}
    (hj : host.openers[j]? = some other) : other.place.owns ≠ some lock := by
  intro howns
  obtain ⟨k, sharer, hk, hshares⟩ := upgrades_iff.mp hlive
  by_cases hne : k = j
  · subst hne
    rw [hj, Option.some.injEq] at hk
    subst hk
    rw [Place.not_owns_of_shares hshares] at howns
    cases howns
  · exact hheld.apart hj hk hne howns (Place.names_of_shares hshares)

theorem Moves.plain (hheld : host.Held canonicalize) (hi : host.openers[index]? = some opener)
    {place : Place δ} (hleft : opener.place.registering = none)
    (hentered : place.registering = none)
    (hnames : ∀ lock, place.names = some lock → opener.place.names = some lock ∨
      host.upgrades lock ∧ lock.pid = opener.pid ∧ lock.dir = canonicalize opener.root)
    (hkeeps : ∀ lock, place.keeps = some lock →
      opener.place.keeps = some lock ∨ host.upgrades lock)
    (hshares : ∀ lock, place.shares = some lock → host.upgrades lock)
    (howns : ∀ lock, place.owns = some lock → opener.place.owns = some lock ∨
      ∀ (j : Nat) (other : Opener ρ δ), host.openers[j]? = some other → j ≠ index →
        other.place.shares ≠ some lock)
    (hdropped : ∀ lock, opener.place.keeps = some lock → place.keeps = some lock ∨
      ∃ (j : Nat) (other : Opener ρ δ), host.openers[j]? = some other ∧ j ≠ index ∧
        other.place.keeps = some lock) :
    host.Moves canonicalize (host.move index opener place) index opener place where
  openers := rfl
  nextFd := le_rfl
  file {lock} h := by
    obtain hbefore | ⟨hlive, hpid, hdir⟩ := hnames lock h
    · exact hheld.file hi hbefore
    · obtain ⟨j, other, hj, hj'⟩ := upgrades_iff.mp hlive
      exact ⟨hpid, hdir, (hheld.file hj (Place.names_of_shares hj')).2.2⟩
  kept {lock} h := by
    obtain hbefore | hlive := hkeeps lock h
    · exact hheld.kept hi hbefore
    · obtain ⟨j, other, hj, hj'⟩ := upgrades_iff.mp hlive
      exact hheld.kept hj (Place.keeps_of_shares hj')
  entered {lock} h := by
    obtain ⟨j, other, hj, hj'⟩ := upgrades_iff.mp (hshares lock h)
    exact hheld.entered hj hj'
  alone h := by
    rw [hentered] at h
    cases h
  owned {j other lock} hj hne h hother := by
    obtain hbefore | hnone := howns lock h
    · exact hheld.apart hi hj hne hbefore hother
    · obtain hshares' | howns' := Place.names_iff.mp hother
      · exact hnone j other hj hne hshares'
      · obtain hbefore | ⟨hlive, -⟩ := hnames lock (Place.names_of_owns h)
        · exact hheld.apart hj hi hne.symm howns' hbefore
        · exact hheld.not_owned_of_upgrades hlive hj howns'
  named {j other lock} hj hne howns' h := by
    obtain hbefore | ⟨hlive, -⟩ := hnames lock h
    · exact hheld.apart hj hi hne.symm howns' hbefore
    · exact hheld.not_owned_of_upgrades hlive hj howns'
  flock hj _ h := hheld.kept hj h
  registry hj _ h := hheld.entered hj h
  mutex hj _ h := hheld.alone hj h
  holder {dir lock} h := by
    by_cases hmine : opener.place.keeps = some lock
    · exact ⟨(hheld.holder h).1, hdropped lock hmine⟩
    · obtain ⟨hdir, hother⟩ := hheld.holder_other hi hmine h
      exact ⟨hdir, .inr hother⟩
  entry := hheld.entry
  inside h := .inr ⟨hheld.inside_ne hi hleft h, h⟩

theorem Held.move_guarded (hheld : host.Held canonicalize)
    (hi : host.openers[index]? = some opener) {old : Place δ} (hold : opener.place = old)
    (hkeeps : old.keeps = none) (hregistering : old.registering = none) {lock : LockFd δ}
    (hentry : host.registry opener.pid (canonicalize opener.root) = some lock)
    (hlive : host.upgrades lock) :
    (host.move index opener (.guarded lock)).Held canonicalize := by
  subst hold
  obtain ⟨hpid, hdir⟩ := hheld.entry hentry
  refine hheld.moved hi _ (.plain hheld hi hregistering rfl ?_ ?_ ?_ ?_ ?_)
  · rintro _ ⟨⟩
    exact .inr ⟨hlive, hpid, hdir⟩
  · rintro _ ⟨⟩
    exact .inr hlive
  · rintro _ ⟨⟩
    exact hlive
  · rintro _ ⟨⟩
  · intro other hother
    rw [hkeeps] at hother
    cases hother

theorem Held.move_on (hheld : host.Held canonicalize) (hi : host.openers[index]? = some opener)
    {old place : Place δ} (hold : opener.place = old) (hleft : old.registering = none)
    (hentered : place.registering = none) (hkeeps : place.keeps = old.keeps)
    (hshares : place.shares = none ∨ place.shares = old.shares)
    (howns : place.owns = none ∨ place.owns = old.owns) :
    (host.move index opener place).Held canonicalize := by
  subst hold
  refine hheld.moved hi _ (.plain hheld hi hleft hentered ?_ ?_ ?_ ?_ ?_)
  · intro lock h
    rw [Place.names_iff] at h ⊢
    grind
  · intro lock h
    exact .inl (hkeeps ▸ h)
  · intro lock h
    apply upgrades_iff.mpr
    exact ⟨index, opener, hi, by grind⟩
  · intro lock h
    exact .inl (by grind)
  · intro lock h
    exact .inl (hkeeps ▸ h)

theorem Held.inside_locked (hheld : host.Held canonicalize)
    (hi : host.openers[index]? = some opener) {file : LockFd δ}
    (hplace : opener.place = .inside file)
    (hfree : host.flock (canonicalize opener.root) = none) :
    ((host.setFlock (canonicalize opener.root) (some file)).move index opener
      (.locked file)).Held canonicalize := by
  have howned : opener.place.owns = some file := by rw [hplace]; rfl
  have hfile := hheld.file hi (Place.names_of_owns howned)
  refine hheld.moved hi (.locked file) ?_
  exact {
    openers := rfl
    nextFd := le_rfl
    file := by
      rintro _ ⟨⟩
      exact hfile
    kept := by
      rintro _ ⟨⟩
      simp [move, setFlock, hfile.2.1]
    entered := nofun
    alone := by
      rintro _ ⟨⟩
      exact hheld.alone hi (by rw [hplace]; rfl)
    owned := by
      rintro j other _ hj hne ⟨⟩
      exact hheld.apart hi hj hne howned
    named := by
      rintro j other _ hj hne hother ⟨⟩
      exact hheld.apart hj hi hne.symm hother (Place.names_of_owns howned)
    flock := by
      intro j other lock hj hne h
      have hkept := hheld.kept hj h
      rw [← hkept]
      apply Function.update_of_ne
      intro hdir
      rw [hdir, hfree] at hkept
      cases hkept
    registry := fun hj _ h => hheld.entered hj h
    mutex := fun hj _ h => hheld.alone hj h
    holder := by
      intro dir lock h
      simp only [move, setFlock] at h
      rw [Function.update_apply] at h
      split at h
      · next hdir =>
        cases h
        exact ⟨hfile.2.1.trans hdir.symm, .inl rfl⟩
      · obtain ⟨hdir, hother⟩ := hheld.holder_other hi (by simp [hplace, Place.keeps]) h
        exact ⟨hdir, .inr hother⟩
    entry := hheld.entry
    inside := by
      intro pid j h
      by_cases hj : j = index
      · subst hj
        obtain ⟨other, _, hj, hother, -⟩ := hheld.inside h
        rw [hi, Option.some.injEq] at hj
        exact .inl ⟨rfl, hj ▸ hother, file, rfl⟩
      · exact .inr ⟨hj, h⟩ }

theorem Held.locked_guarded (hheld : host.Held canonicalize)
    (hi : host.openers[index]? = some opener) {file : LockFd δ}
    (hplace : opener.place = .locked file) :
    (((host.setEntry opener.pid (canonicalize opener.root) (some file)).setMutex opener.pid
      none).move index opener (.guarded file)).Held canonicalize := by
  have howned : opener.place.owns = some file := by rw [hplace]; rfl
  have hfile := hheld.file hi (Place.names_of_owns howned)
  obtain ⟨hmutex, hnone⟩ := hheld.alone hi (show _ = some file by rw [hplace]; rfl)
  -- whoever else is in a registry is in that of another process
  have hpids {j : Nat} {other : Opener ρ δ} {lock : LockFd δ}
      (hj : host.openers[j]? = some other) (hne : j ≠ index)
      (h : other.place.registering = some lock) : other.pid ≠ opener.pid := by
    intro hpid
    have hothers := (hheld.alone hj h).1
    rw [hpid, hmutex, Option.some.injEq] at hothers
    exact hne hothers.symm
  refine hheld.moved hi (.guarded file) ?_
  exact {
    openers := rfl
    nextFd := le_rfl
    file := by
      rintro _ ⟨⟩
      exact hfile
    kept := by
      rintro _ ⟨⟩
      exact hheld.kept hi (by rw [hplace]; rfl)
    entered := by
      rintro _ ⟨⟩
      exact (host.setEntry_registry _ _ _ _ _).trans (if_pos ⟨hfile.1, hfile.2.1⟩)
    alone := nofun
    owned := nofun
    named := by
      rintro j other _ hj hne hother ⟨⟩
      exact hheld.apart hj hi hne.symm hother (Place.names_of_owns howned)
    flock := fun hj _ h => hheld.kept hj h
    registry := by
      intro j other lock hj hne h
      have hentry := hheld.entered hj h
      refine (host.setEntry_registry _ _ _ _ _).trans ((if_neg ?_).trans hentry)
      rintro ⟨hpid, hdir⟩
      rw [hpid, hdir, ← hfile.1, ← hfile.2.1, hnone] at hentry
      cases hentry
    mutex := by
      intro j other lock hj hne h
      obtain ⟨hothers, hempty⟩ := hheld.alone hj h
      have hpid := hpids hj hne h
      refine ⟨(Function.update_of_ne hpid _ _).trans hothers, ?_⟩
      refine (host.setEntry_registry _ _ _ _ _).trans ((if_neg ?_).trans hempty)
      intro hsame
      have howner := (hheld.file hj (Place.names_of_owns (Place.owns_of_registering h))).1
      exact hpid (howner.symm.trans hsame.1)
    holder := by
      intro dir lock h
      by_cases hmine : opener.place.keeps = some lock
      · rw [hplace] at hmine
        exact ⟨(hheld.holder h).1, .inl hmine⟩
      · obtain ⟨hdir, hother⟩ := hheld.holder_other hi hmine h
        exact ⟨hdir, .inr hother⟩
    entry := by
      intro pid dir lock h
      replace h := (host.setEntry_registry _ _ _ _ _).symm.trans h
      split at h
      · next hsame =>
        cases h
        exact ⟨hfile.1.trans hsame.1.symm, hfile.2.1.trans hsame.2.symm⟩
      · exact hheld.entry h
    inside := by
      intro pid j h
      simp only [move, setMutex] at h
      rw [Function.update_apply] at h
      split at h
      · cases h
      · next hpid =>
        refine .inr ⟨?_, h⟩
        rintro rfl
        obtain ⟨other, _, hj, hother, -⟩ := hheld.inside h
        rw [hi, Option.some.injEq] at hj
        exact hpid (hj ▸ hother.symm) }

theorem Held.releasing_cleaning (hheld : host.Held canonicalize)
    (hi : host.openers[index]? = some opener) {lock : LockFd δ}
    (hplace : opener.place = .releasing lock) :
    ((host.setFlock (canonicalize opener.root) none).move index opener (.cleaning lock)).Held
      canonicalize := by
  have howned : opener.place.owns = some lock := by rw [hplace]; rfl
  have hfile := hheld.file hi (Place.names_of_owns howned)
  have hkept := hheld.kept hi (show _ = some lock by rw [hplace]; rfl)
  refine hheld.moved hi (.cleaning lock) ?_
  exact {
    openers := rfl
    nextFd := le_rfl
    file := by
      rintro _ ⟨⟩
      exact hfile
    kept := nofun
    entered := nofun
    alone := nofun
    owned := by
      rintro j other _ hj hne ⟨⟩
      exact hheld.apart hi hj hne howned
    named := by
      rintro j other _ hj hne hother ⟨⟩
      exact hheld.apart hj hi hne.symm hother (Place.names_of_owns howned)
    flock := by
      intro j other held hj hne h
      have hothers := hheld.kept hj h
      rw [← hothers]
      apply Function.update_of_ne
      intro hdir
      rw [hdir, ← hfile.2.1, hkept, Option.some.injEq] at hothers
      subst hothers
      exact hheld.apart hi hj hne howned (Place.names_of_keeps h)
    registry := fun hj _ h => hheld.entered hj h
    mutex := fun hj _ h => hheld.alone hj h
    holder := by
      intro dir held h
      simp only [move, setFlock] at h
      rw [Function.update_apply] at h
      split at h
      · cases h
      · next hdir =>
        have hmine : opener.place.keeps ≠ some held := by
          rw [hplace]
          rintro ⟨⟩
          exact hdir ((hheld.holder h).1.symm.trans hfile.2.1)
        obtain ⟨hdir, hother⟩ := hheld.holder_other hi hmine h
        exact ⟨hdir, .inr hother⟩
    entry := hheld.entry
    inside := fun h => .inr ⟨hheld.inside_ne hi (by rw [hplace]; rfl) h, h⟩ }

theorem upgrades_dropped (hi : host.openers[index]? = some opener) {lock : LockFd δ} :
    (host.move index opener .gone).upgrades lock ↔
      ∃ (j : Nat) (other : Opener ρ δ), host.openers[j]? = some other ∧ j ≠ index ∧
        other.place.shares = some lock := by
  rw [upgrades_iff]
  constructor
  · rintro ⟨j, other, hj, hshares⟩
    simp only [move] at hj
    by_cases hne : j = index
    · rw [hne, List.getElem?_set_self', hi] at hj
      cases hj
      cases hshares
    · rw [List.getElem?_set_ne (Ne.symm hne)] at hj
      exact ⟨j, other, hj, hne, hshares⟩
  · rintro ⟨j, other, hj, hne, hshares⟩
    exact ⟨j, other, (List.getElem?_set_ne hne.symm).trans hj, hshares⟩

theorem Held.closed_gone (hheld : host.Held canonicalize)
    (hi : host.openers[index]? = some opener) {lock : LockFd δ}
    (hplace : opener.place = .closed lock)
    (hlive : (host.move index opener .gone).upgrades lock) :
    (host.move index opener .gone).Held canonicalize := by
  refine hheld.moved hi _ (.plain hheld hi (by rw [hplace]; rfl) rfl nofun nofun nofun nofun ?_)
  rw [hplace]
  rintro _ ⟨⟩
  obtain ⟨j, other, hj, hne, hshares⟩ := (upgrades_dropped hi).mp hlive
  exact .inr ⟨j, other, hj, hne, Place.keeps_of_shares hshares⟩

theorem Held.closed_releasing (hheld : host.Held canonicalize)
    (hi : host.openers[index]? = some opener) {lock : LockFd δ}
    (hplace : opener.place = .closed lock)
    (hlast : ¬ (host.move index opener .gone).upgrades lock) :
    (host.move index opener (.releasing lock)).Held canonicalize := by
  refine hheld.moved hi _ (.plain hheld hi (by rw [hplace]; rfl) rfl ?_ ?_ nofun ?_ ?_)
  · rintro _ ⟨⟩
    exact .inl (by rw [hplace]; rfl)
  · rintro _ ⟨⟩
    exact .inl (by rw [hplace]; rfl)
  · rintro _ ⟨⟩
    refine .inr fun j other hj hne hshares => ?_
    exact hlast ((upgrades_dropped hi).mpr ⟨j, other, hj, hne, hshares⟩)
  · rw [hplace]
    rintro _ ⟨⟩
    exact .inl rfl

theorem Held.advance (hheld : host.Held canonicalize) (hi : host.openers[index]? = some opener)
    (ok : Bool) : (host.advance canonicalize index ok opener).Held canonicalize := by
  unfold OpenHost.advance
  cases hplace : opener.place with
  | start =>
    cases ok with
    | false => exact hheld.move_on hi hplace rfl rfl rfl (.inl rfl) (.inl rfl)
    | true => exact hheld.move_on hi hplace rfl rfl rfl (.inl rfl) (.inl rfl)
  | fast =>
    dsimp only
    split
    · exact hheld
    · obtain ⟨lock, hfound, hentry, hlive⟩ | ⟨next, hfound, hnext, hopeners, -⟩ :=
        liveLockFor_cases hheld opener.pid (canonicalize opener.root)
      · rw [hfound]
        exact hheld.move_guarded hi hplace rfl rfl hentry hlive
      · rw [hfound]
        exact hnext.move_on (hopeners ▸ hi) hplace rfl rfl rfl (.inl rfl) (.inl rfl)
  | opening =>
    cases ok with
    | false => exact hheld.move_on hi hplace rfl rfl rfl (.inl rfl) (.inl rfl)
    | true => exact hheld.opening hi hplace
  | trying file =>
    dsimp only
    split
    · exact hheld
    · next hfree =>
      rw [Option.not_isSome_iff_eq_none] at hfree
      obtain ⟨lock, hfound, hentry, hlive⟩ | ⟨next, hfound, hnext, hopeners, -, hmutex, -, hnone⟩ :=
        liveLockFor_cases hheld opener.pid (canonicalize opener.root)
      · rw [hfound]
        exact hheld.move_guarded hi hplace rfl rfl hentry hlive
      · rw [hfound]
        exact hnext.inside_taken (hopeners ▸ hi) hplace (hmutex ▸ hfree) hnone
  | inside file =>
    dsimp only
    split
    · next hfree =>
      cases ok with
      | false => exact hheld.inside_left hi hplace rfl rfl rfl (.inl rfl)
      | true => exact hheld.inside_locked hi hplace hfree
    · cases ok with
      | false => exact hheld.inside_left hi hplace rfl rfl rfl (.inl rfl)
      | true => exact hheld.inside_left hi hplace rfl rfl rfl (.inr rfl)
  | locked file => exact hheld.locked_guarded hi hplace
  | waiting file =>
    cases ok with
    | false => exact hheld.move_on hi hplace rfl rfl rfl (.inl rfl) (.inl rfl)
    | true => exact hheld.move_on hi hplace rfl rfl rfl (.inl rfl) (.inr rfl)
  | guarded lock =>
    cases ok with
    | false => exact hheld.move_on hi hplace rfl rfl rfl (.inr rfl) (.inl rfl)
    | true => exact hheld.move_on hi hplace rfl rfl rfl (.inr rfl) (.inl rfl)
  | live lock => exact hheld.move_on hi hplace rfl rfl rfl (.inr rfl) (.inl rfl)
  | closed lock =>
    dsimp only
    split
    · next hlive => exact hheld.closed_gone hi hplace hlive
    · next hlast => exact hheld.closed_releasing hi hplace hlast
  | releasing lock =>
    have hfile := hheld.file hi (show _ = some lock by rw [hplace]; rfl)
    have hkept := hheld.kept hi (show _ = some lock by rw [hplace]; rfl)
    rw [hfile.2.1] at hkept
    dsimp only
    rw [if_pos hkept]
    exact hheld.releasing_cleaning hi hplace
  | cleaning lock =>
    dsimp only
    split
    · exact hheld
    · obtain ⟨other, hfound, -⟩ | ⟨next, hfound, hnext, hopeners, -⟩ :=
        liveLockFor_cases hheld opener.pid (canonicalize opener.root)
      · rw [hfound]
        exact hheld.move_on hi hplace rfl rfl rfl (.inl rfl) (.inl rfl)
      · rw [hfound]
        exact hnext.move_on (hopeners ▸ hi) hplace rfl rfl rfl (.inl rfl) (.inl rfl)
  | gone => exact hheld

theorem Held.begin (hheld : host.Held canonicalize) (pid : Nat) (root : ρ) :
    (host.step canonicalize (.begin pid root)).Held canonicalize := by
  have hcases {j : Nat} {other : Opener ρ δ}
      (hj : (host.openers ++ [⟨pid, root, .start⟩])[j]? = some other) :
      host.openers[j]? = some other ∨ other.place = .start := by
    rw [List.getElem?_append] at hj
    split at hj
    · exact .inl hj
    · rw [List.getElem?_singleton] at hj
      split at hj
      · cases hj
        exact .inr rfl
      · cases hj
  have hgrown {j : Nat} {other : Opener ρ δ} (hj : host.openers[j]? = some other) :
      (host.openers ++ [⟨pid, root, .start⟩])[j]? = some other :=
    List.getElem?_append_left (List.getElem?_eq_some_iff.mp hj).1 ▸ hj
  exact {
    file := fun hj h => by
      obtain hj | hstart := hcases hj
      · exact hheld.file hj h
      · rw [hstart] at h
        cases h
    kept := fun hj h => by
      obtain hj | hstart := hcases hj
      · exact hheld.kept hj h
      · rw [hstart] at h
        cases h
    entered := fun hj h => by
      obtain hj | hstart := hcases hj
      · exact hheld.entered hj h
      · rw [hstart] at h
        cases h
    alone := fun hj h => by
      obtain hj | hstart := hcases hj
      · exact hheld.alone hj h
      · rw [hstart] at h
        cases h
    apart := fun hj hk hne h hother => by
      obtain hj | hstart := hcases hj
      · obtain hk | hstart := hcases hk
        · exact hheld.apart hj hk hne h hother
        · rw [hstart] at hother
          cases hother
      · rw [hstart] at h
        cases h
    holder := fun h => by
      obtain ⟨hdir, j, other, hj, hkeeps⟩ := hheld.holder h
      exact ⟨hdir, j, other, hgrown hj, hkeeps⟩
    entry := hheld.entry
    inside := fun h => by
      obtain ⟨other, file, hj, hother⟩ := hheld.inside h
      exact ⟨other, file, hgrown hj, hother⟩ }

omit [DecidableEq δ] in
theorem Held.die (hheld : host.Held canonicalize) (pid : Nat) :
    (host.die pid).Held canonicalize := by
  have hcases {j : Nat} {other : Opener ρ δ} (hj : (host.die pid).openers[j]? = some other) :
      (host.openers[j]? = some other ∧ other.pid ≠ pid) ∨ other.place = .gone := by
    simp only [OpenHost.die, List.getElem?_map, Option.map_eq_some_iff] at hj
    obtain ⟨before, hbefore, rfl⟩ := hj
    split
    · exact .inr rfl
    · next hpid => exact .inl ⟨hbefore, hpid⟩
  have hspared {j : Nat} {other : Opener ρ δ} (hj : host.openers[j]? = some other)
      (hpid : other.pid ≠ pid) : (host.die pid).openers[j]? = some other := by
    simp only [OpenHost.die, List.getElem?_map, hj, Option.map_some, if_neg hpid]
  exact {
    file := fun hj h => by
      obtain ⟨hj, -⟩ | hgone := hcases hj
      · exact hheld.file hj h
      · rw [hgone] at h
        cases h
    kept := fun hj h => by
      obtain ⟨hj, hpid⟩ | hgone := hcases hj
      · have howner := (hheld.file hj (Place.names_of_keeps h)).1
        simp only [OpenHost.die]
        rw [hheld.kept hj h, Option.filter_some, if_pos]
        simpa [howner] using hpid
      · rw [hgone] at h
        cases h
    entered := fun hj h => by
      obtain ⟨hj, hpid⟩ | hgone := hcases hj
      · have howner := (hheld.file hj (Place.names_of_shares h)).1
        simp only [OpenHost.die]
        rw [Function.update_of_ne (howner ▸ hpid)]
        exact hheld.entered hj h
      · rw [hgone] at h
        cases h
    alone := fun {j other file} hj h => by
      obtain ⟨hj, hpid⟩ | hgone := hcases hj
      · have howner := (hheld.file hj (Place.names_of_owns (Place.owns_of_registering h))).1
        obtain ⟨hmutex, hnone⟩ := hheld.alone hj h
        simp only [OpenHost.die]
        rw [Function.update_of_ne hpid, Function.update_of_ne (howner ▸ hpid)]
        exact ⟨hmutex, hnone⟩
      · rw [hgone] at h
        cases h
    apart := fun hj hk hne h hother => by
      obtain ⟨hj, -⟩ | hgone := hcases hj
      · obtain ⟨hk, -⟩ | hgone := hcases hk
        · exact hheld.apart hj hk hne h hother
        · rw [hgone] at hother
          cases hother
      · rw [hgone] at h
        cases h
    holder := fun h => by
      simp only [OpenHost.die, Option.filter_eq_some_iff] at h
      obtain ⟨hdir, j, other, hj, hkeeps⟩ := hheld.holder h.1
      have howner := (hheld.file hj (Place.names_of_keeps hkeeps)).1
      refine ⟨hdir, j, other, hspared hj ?_, hkeeps⟩
      rw [← howner]
      simpa using h.2
    entry := fun {p d lock} h => by
      simp only [OpenHost.die] at h
      rw [Function.update_apply] at h
      split at h
      · cases h
      · exact hheld.entry h
    inside := fun {p i} h => by
      simp only [OpenHost.die] at h
      rw [Function.update_apply] at h
      split at h
      · cases h
      · next hpid =>
        obtain ⟨other, file, hj, hother, hregistering⟩ := hheld.inside h
        exact ⟨other, file, hspared hj (hother ▸ hpid), hother, hregistering⟩ }

theorem Held.step (hheld : host.Held canonicalize) (event : OpenEvent ρ) :
    (host.step canonicalize event).Held canonicalize := by
  cases event with
  | begin pid root => exact hheld.begin pid root
  | advance index ok =>
    simp only [OpenHost.step]
    split
    · next opener hi => exact hheld.advance hi ok
    · exact hheld
  | die pid => exact hheld.die pid

end Steps

end OpenHost

end Simard.Memory
