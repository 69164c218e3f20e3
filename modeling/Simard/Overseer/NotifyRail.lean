import Mathlib.Algebra.Order.Ring.Int
import Simard.Library.Lists

/-! The rail before the operator's notifiers. The process remembers when a push with a signature
last went out, whichever Overseer sent it, and holds back an equal one until the cooldown is over.
-/
namespace Simard.Overseer
open Simard.Library

/-- The order in which the map of signatures yields its entries. -/
structure HashOrder where
  arrange : List (String × Int) → List (String × Int)
  perm : ∀ entries, (arrange entries).Perm entries

def HashOrder.asEntered : HashOrder := ⟨id, fun _ => .refl _⟩

/-- When a push of each signature last went out. -/
structure NotifyDedup where
  entries : List (String × Int)

def suppressibleKinds : List String :=
  ["deploy-refused", "goal-blocked", "workstream-gap", "merge-reasoning-disabled", "whisper"]

def notifyDedupMaxEntries : Nat := 1024

namespace NotifyDedup

def get? (rail : NotifyDedup) (signature : String) : Option Int :=
  (rail.entries.find? (·.1 = signature)).map (·.2)

def insert (rail : NotifyDedup) (signature : String) (now : Int) : NotifyDedup :=
  ⟨rail.entries.filter (·.1 ≠ signature) ++ [(signature, now)]⟩

variable (order : HashOrder) (cooldown : UInt64)

def horizon : Nat := min (2 * cooldown.toNat) (2 ^ 64 - 1)

/-- Entries that would let a push through anyway go, and of more than fit the oldest. -/
def pruneDedupMap (rail : NotifyDedup) (now : Int) : NotifyDedup :=
  let kept := rail.entries.filter fun entry => (now - entry.2).toNat ≤ horizon cooldown
  if notifyDedupMaxEntries < kept.length then
    let byAge := (order.arrange kept).mergeSort fun a b => a.2 ≤ b.2
    let evicted := (byAge.take (kept.length - notifyDedupMaxEntries)).map (·.1)
    ⟨kept.filter (·.1 ∉ evicted)⟩
  else ⟨kept⟩

/-- Whether a push may go out, and the map after it. -/
def dedupAllow (rail : NotifyDedup) (signature : String) (now : Int) : Bool × NotifyDedup :=
  let allow := (rail.get? signature).all fun last => cooldown.toNat ≤ (now - last).toNat
  if allow then (true, pruneDedupMap order cooldown (rail.insert signature now) now)
  else (false, rail)

/-- Other kinds than the suppressible ones pass the rail by. -/
def notifyAt (rail : NotifyDedup) (kind signature : String) (now : Int) : Bool × NotifyDedup :=
  if kind ∈ suppressibleKinds then rail.dedupAllow order cooldown signature now else (true, rail)

end NotifyDedup

def mergeReasoningDisabledSignature : String :=
  "merge-reasoning-disabled\x1frysweet/Simard\x1fagentic merge-queue reasoning DISABLED\x1f" ++
    "The Overseer's agentic observe/orient merge-queue + issue reasoning is DISABLED by " ++
    "explicit operator configuration. Reason: SIMARD_MERGE_REASONING_SCOPE explicitly set to a " ++
    "disable value While disabled, no open PRs or issues are reasoned about and no autonomous " ++
    "merge hygiene runs. Unset SIMARD_MERGE_REASONING_SCOPE to restore default-on reasoning " ++
    "over the governed roster."

namespace NotifyDedup

variable {order : HashOrder} {cooldown : UInt64} {rail : NotifyDedup} {signature : String}
  {now : Int}

theorem cooldown_le_horizon : cooldown.toNat ≤ horizon cooldown := by
  have := cooldown.toNat_lt
  unfold horizon
  omega

/-- At that time or later a push of the signature went out, as far as it matters now. -/
def Knows (cooldown : UInt64) (rail : NotifyDedup) (signature : String) (time now : Int) : Prop :=
  (horizon cooldown : Int) < now - time ∨ ∃ last, rail.get? signature = some last ∧ time ≤ last

theorem Knows.later {time later : Int} (h : rail.Knows cooldown signature time now)
    (hle : now ≤ later) : rail.Knows cooldown signature time later := by
  refine h.imp_left fun hstale => ?_
  omega

theorem Knows.apart {time : Int} (h : rail.Knows cooldown signature time now) (htime : time ≤ now)
    (hallow : (rail.dedupAllow order cooldown signature now).1 = true) :
    (cooldown.toNat : Int) ≤ now - time := by
  have hhorizon := @cooldown_le_horizon cooldown
  rcases h with hstale | ⟨last, hlast, hle⟩
  · omega
  · unfold dedupAllow at hallow
    rw [hlast, Option.all_some] at hallow
    dsimp only at hallow
    split at hallow
    next hdue =>
      rw [decide_eq_true_eq] at hdue
      omega
    · cases hallow

theorem get?_insert_self : (rail.insert signature now).get? signature = some now := by
  unfold get? insert
  have hnone : (rail.entries.filter (·.1 ≠ signature)).find? (·.1 = signature) = none := by
    rw [List.find?_eq_none]
    intro entry hentry
    simpa using (List.mem_filter.mp hentry).2
  rw [List.find?_append, hnone]
  simp

theorem get?_insert_of_ne {other : String} (hne : other ≠ signature) {last : Int}
    (h : rail.get? other = some last) : (rail.insert signature now).get? other = some last := by
  obtain ⟨entry, hfind, rfl⟩ := Option.map_eq_some_iff.mp h
  have hkey : entry.1 = other := by simpa using List.find?_some hfind
  have hkept := find?_filter_of_pos (p := fun entry => entry.1 ≠ signature) hfind
    (by simpa [hkey] using hne)
  unfold get? insert
  rw [List.find?_append, hkept]
  rfl

theorem length_insert_le :
    (rail.insert signature now).entries.length ≤ rail.entries.length + 1 := by
  unfold insert
  rw [List.length_append, List.length_singleton]
  exact Nat.succ_le_succ (List.length_filter_le _ _)

theorem get?_pruneDedupMap (hroom : rail.entries.length ≤ notifyDedupMaxEntries) {last : Int}
    (h : rail.get? signature = some last) :
    (horizon cooldown : Int) < now - last ∨
      (pruneDedupMap order cooldown rail now).get? signature = some last := by
  obtain ⟨entry, hfind, rfl⟩ := Option.map_eq_some_iff.mp h
  by_cases hfresh : (now - entry.2).toNat ≤ horizon cooldown
  · right
    have hfits : ¬ notifyDedupMaxEntries < (rail.entries.filter fun entry =>
        (now - entry.2).toNat ≤ horizon cooldown).length :=
      Nat.not_lt.mpr (le_trans (List.length_filter_le _ _) hroom)
    unfold pruneDedupMap
    dsimp only
    rw [if_neg hfits]
    unfold get?
    dsimp only
    rw [find?_filter_of_pos hfind (by simpa using hfresh)]
    rfl
  · left
    omega

theorem Knows.dedupAllow {time : Int} {pushed : String}
    (hroom : rail.entries.length < notifyDedupMaxEntries) (htime : time ≤ now)
    (h : rail.Knows cooldown signature time now) :
    (rail.dedupAllow order cooldown pushed now).2.Knows cooldown signature time now := by
  unfold NotifyDedup.dedupAllow
  dsimp only
  split
  · rcases h with hstale | ⟨last, hlast, hle⟩
    · exact .inl hstale
    · have hinserted : ∃ last, (rail.insert pushed now).get? signature =
          some last ∧ time ≤ last := by
        by_cases hsame : signature = pushed
        · exact ⟨now, hsame ▸ get?_insert_self, htime⟩
        · exact ⟨last, get?_insert_of_ne hsame hlast, hle⟩
      obtain ⟨last', hlast', hle'⟩ := hinserted
      rcases @get?_pruneDedupMap order cooldown _ signature now
        (length_insert_le.trans hroom) last' hlast' with hstale | hkept
      · exact .inl (by omega)
      · exact .inr ⟨last', hkept, hle'⟩
  · exact h

theorem knows_sent (hroom : rail.entries.length < notifyDedupMaxEntries)
    (hallow : (rail.dedupAllow order cooldown signature now).1 = true) :
    (rail.dedupAllow order cooldown signature now).2.Knows cooldown signature now now := by
  unfold NotifyDedup.dedupAllow at hallow ⊢
  dsimp only at hallow ⊢
  split
  · rcases @get?_pruneDedupMap order cooldown _ signature now
      (length_insert_le.trans hroom) now get?_insert_self with hstale | hkept
    · exact .inl hstale
    · exact .inr ⟨now, hkept, le_rfl⟩
  next hheld =>
    rw [if_neg hheld] at hallow
    cases hallow

end NotifyDedup

end Simard.Overseer
