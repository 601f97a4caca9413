import Mathlib.Tactic.NormNum
import Goodmoneying.Program.WebSocketRateLimit

/-!
# The message limiter holds both limits

The queue of the limiter is what was granted in the last minute, in the order of time, so the calls
of the last second are its end. A pass grants only where both are shorter than their limits, and a
queue shorter than its limit leaves room in every window.
-/

namespace Goodmoneying.Analysis.WebSocket

open List Program.WebSocket Goodmoneying.SlidingWindow

theorem windowWait_of_lt {limit : ℕ} {window now : ℚ} {calls : List ℚ}
    (h : calls.length < limit) : windowWait limit window now calls = .ok [] :=
  if_neg (not_le.mpr h)

theorem windowWait_of_le {limit : ℕ} {window now : ℚ} {calls : List ℚ} (hlimit : 1 ≤ limit)
    (h : limit ≤ calls.length) : ∃ wait, windowWait limit window now calls = .ok [wait] := by
  unfold windowWait
  rw [if_pos h]
  cases calls with
  | nil => exact absurd (hlimit.trans h) (by simp)
  | cons first rest => exact ⟨_, rfl⟩

/-- What a pass grants found both windows short of their limits. -/
structure Grants (limiter : WebSocketRateLimiter) (now : ℚ) (limiter' : WebSocketRateLimiter) :
    Prop where
  second : ((prune 60 now limiter.calls).filter fun c => decide (now - c < 1)).length <
    limiter.perSecond
  minute : (prune 60 now limiter.calls).length < limiter.perMinute
  eq : limiter' = { limiter with calls := prune 60 now limiter.calls ++ [now] }

/-- A pass grants, or sleeps for a positive time. -/
theorem pass_cases (limiter : WebSocketRateLimiter) (now : ℚ) (hsecond : 1 ≤ limiter.perSecond)
    (hminute : 1 ≤ limiter.perMinute) :
    ((limiter.pass now).1 = .granted ∧ Grants limiter now (limiter.pass now).2) ∨
    (∃ seconds, (limiter.pass now).1 = .sleeps seconds ∧ 0 < seconds ∧
      (limiter.pass now).2 = { limiter with calls := prune 60 now limiter.calls }) := by
  have hpositive (wait : ℚ) : 0 < max wait (1 / 1000 : ℚ) := lt_max_of_lt_right (by norm_num)
  unfold WebSocketRateLimiter.pass
  dsimp only
  rcases lt_or_ge ((prune 60 now limiter.calls).filter fun c => decide (now - c < 1)).length
    limiter.perSecond with hroom | hfull
  · rw [windowWait_of_lt hroom]
    rcases lt_or_ge (prune 60 now limiter.calls).length limiter.perMinute with hroom' | hfull'
    · rw [windowWait_of_lt hroom']
      exact Or.inl ⟨rfl, hroom, hroom', rfl⟩
    · obtain ⟨wait, hwait⟩ : ∃ wait, windowWait limiter.perMinute 60 now _ = .ok [wait] :=
        windowWait_of_le hminute hfull'
      rw [hwait]
      exact Or.inr ⟨_, rfl, hpositive _, rfl⟩
  · obtain ⟨first, hfirst⟩ : ∃ first, windowWait limiter.perSecond 1 now _ = .ok [first] :=
      windowWait_of_le hsecond hfull
    rw [hfirst]
    rcases lt_or_ge (prune 60 now limiter.calls).length limiter.perMinute with hroom' | hfull'
    · rw [windowWait_of_lt hroom']
      exact Or.inr ⟨_, rfl, hpositive _, rfl⟩
    · obtain ⟨wait, hwait⟩ : ∃ wait, windowWait limiter.perMinute 60 now _ = .ok [wait] :=
        windowWait_of_le hminute hfull'
      rw [hwait]
      exact Or.inr ⟨_, rfl, hpositive _, rfl⟩

/-- What holds of a run whose clock has last read `now`. -/
structure Held (perSecond perMinute : ℕ) (now : ℚ) (run : AcquireRun) : Prop where
  perSecond_eq : run.limiter.perSecond = perSecond
  perMinute_eq : run.limiter.perMinute = perMinute
  sorted : run.grants.Pairwise (· ≤ ·)
  past : ∀ c ∈ run.grants, c ≤ now
  calls : run.limiter.calls = recent 60 now run.grants
  second : Bounded perSecond 1 run.grants
  minute : Bounded perMinute 60 run.grants
  waits : ∀ acquire seconds, (acquire, .sleeps seconds) ∈ run.log → 0 < seconds

variable {perSecond perMinute : ℕ} {now : ℚ} {run : AcquireRun}

theorem Held.start (perSecond perMinute : ℕ) (now : ℚ) :
    Held perSecond perMinute now (.start perSecond perMinute) where
  perSecond_eq := rfl
  perMinute_eq := rfl
  sorted := List.Pairwise.nil
  past := fun _ hc => absurd hc not_mem_nil
  calls := rfl
  second := Bounded.empty perSecond 1
  minute := Bounded.empty perMinute 60
  waits := fun _ _ h => absurd h not_mem_nil

theorem grants_after (run : AcquireRun) (acquire : AcquirePass) :
    (run.after acquire).grants = run.grants ++
      if (run.limiter.pass acquire.now).1 = .granted then [acquire.now] else [] := by
  unfold AcquireRun.grants AcquireRun.after
  rw [filterMap_append]
  split_ifs with h
  · simp [h]
  · simp [h]

/-- What the queue is once it is pruned. -/
theorem Held.prune_eq {now' : ℚ} (h : Held perSecond perMinute now run) (hnow : now ≤ now') :
    prune 60 now' run.limiter.calls = recent 60 now' run.grants := by
  rw [h.calls, prune_eq_recent (recent_sorted h.sorted), recent_recent _ hnow (le_refl 60)]

/-- A pass keeps what holds. -/
theorem Held.after {acquire : AcquirePass} (hsecond : 1 ≤ perSecond) (hminute : 1 ≤ perMinute)
    (h : Held perSecond perMinute now run) (hnow : now ≤ acquire.now) :
    Held perSecond perMinute acquire.now (run.after acquire) := by
  have hprune := h.prune_eq hnow
  have hpast : ∀ c ∈ run.grants, c ≤ acquire.now := fun c hc => (h.past c hc).trans hnow
  obtain ⟨hgranted, hroom, hroom', heq⟩ | ⟨seconds, hsleeps, hpositive, heq⟩ :=
    pass_cases run.limiter acquire.now (h.perSecond_eq ▸ hsecond) (h.perMinute_eq ▸ hminute)
  · have hgrants : (run.after acquire).grants = run.grants ++ [acquire.now] := by
      rw [grants_after, if_pos hgranted]
    rw [hprune, h.perMinute_eq] at hroom'
    -- the calls of the last second are the end of the grants
    have hsecondCalls : ((prune 60 acquire.now run.limiter.calls).filter fun c =>
        decide (acquire.now - c < 1)) = recent 1 acquire.now run.grants := by
      rw [hprune]
      exact recent_recent _ (le_refl _) (by norm_num)
    rw [hsecondCalls, h.perSecond_eq] at hroom
    have hnew : recent 60 acquire.now [acquire.now] = [acquire.now] := by
      unfold recent
      rw [filter_cons_of_pos (by norm_num), filter_nil]
    refine ⟨?_, ?_, ?_, ?_, ?_, ?_, ?_, ?_⟩
    · exact (congrArg WebSocketRateLimiter.perSecond heq).trans h.perSecond_eq
    · exact (congrArg WebSocketRateLimiter.perMinute heq).trans h.perMinute_eq
    · rw [hgrants, pairwise_append]
      refine ⟨h.sorted, pairwise_singleton _ _, fun c hc last hlast => ?_⟩
      obtain rfl := mem_singleton.mp hlast
      exact hpast c hc
    · rw [hgrants]
      intro c hc
      rcases mem_append.mp hc with hc | hc
      · exact hpast c hc
      · exact (mem_singleton.mp hc).le
    · refine (congrArg WebSocketRateLimiter.calls heq).trans ?_
      rw [hgrants, hprune, recent, recent, filter_append]
      exact congrArg _ hnew.symm
    · rw [hgrants]
      exact h.second.grant (tracks_recent h.sorted) hroom
    · rw [hgrants]
      exact h.minute.grant (tracks_recent h.sorted) hroom'
    · intro other wait hmem
      rcases mem_append.mp hmem with hmem | hmem
      · exact h.waits other wait hmem
      · have hpass := congrArg Prod.snd (mem_singleton.mp hmem)
        rw [hgranted] at hpass
        cases hpass
  · have hgrants : (run.after acquire).grants = run.grants := by
      rw [grants_after, if_neg (by rw [hsleeps]; exact fun hne => by cases hne), append_nil]
    refine ⟨?_, ?_, ?_, ?_, ?_, ?_, ?_, ?_⟩
    · exact (congrArg WebSocketRateLimiter.perSecond heq).trans h.perSecond_eq
    · exact (congrArg WebSocketRateLimiter.perMinute heq).trans h.perMinute_eq
    · rw [hgrants]
      exact h.sorted
    · rw [hgrants]
      exact hpast
    · rw [hgrants]
      exact (congrArg WebSocketRateLimiter.calls heq).trans hprune
    · rw [hgrants]
      exact h.second
    · rw [hgrants]
      exact h.minute
    · intro other wait hmem
      rcases mem_append.mp hmem with hmem | hmem
      · exact h.waits other wait hmem
      · have hpass := congrArg Prod.snd (mem_singleton.mp hmem)
        rw [hsleeps] at hpass
        obtain rfl := Pass.sleeps.inj hpass
        exact hpositive

/-- A run whose clock never goes back keeps what holds, up to what it has read last. -/
theorem Held.afterPasses {passes : List AcquirePass} (hsecond : 1 ≤ perSecond)
    (hminute : 1 ≤ perMinute) (hclock : (passes.map AcquirePass.now).Pairwise (· ≤ ·))
    (hnow : ∀ acquire ∈ passes, now ≤ acquire.now) (h : Held perSecond perMinute now run) :
    Held perSecond perMinute ((passes.getLast?.map AcquirePass.now).getD now)
      (run.afterPasses passes) := by
  induction passes generalizing now run with
  | nil => exact h
  | cons acquire passes ih =>
    obtain ⟨hfirst, hrest⟩ := pairwise_cons.mp hclock
    have hstep := h.after hsecond hminute (hnow acquire mem_cons_self)
    have hheld := ih hrest (fun later hlater => hfirst _ (mem_map_of_mem hlater)) hstep
    rw [List.getLast?_cons]
    cases hlast : passes.getLast? with
    | none =>
      rw [hlast] at hheld
      exact hheld
    | some last =>
      rw [hlast] at hheld
      exact hheld

/-- Over any passes of any callers: no second and no minute holds more grants than its limit, the
queue is what was granted in the minute before the last pass, in the order of time, and every
wait is positive.
SOURCE: websocket_protocol.py:207-241 -/
theorem webSocketRateLimiter_safe (perSecond perMinute : ℕ) (hsecond : 1 ≤ perSecond)
    (hminute : 1 ≤ perMinute) (passes : List AcquirePass)
    (hclock : (passes.map AcquirePass.now).Pairwise (· ≤ ·)) :
    let run := (AcquireRun.start perSecond perMinute).afterPasses passes
    (∀ t, (within 1 t run.grants).length ≤ perSecond) ∧
    (∀ t, (within 60 t run.grants).length ≤ perMinute) ∧
    (∀ last, passes.getLast? = some last →
      run.limiter.calls = run.grants.filter fun c => decide (last.now - c < 60)) ∧
    run.limiter.calls.Pairwise (· ≤ ·) ∧
    ∀ acquire seconds, (acquire, .sleeps seconds) ∈ run.log → 0 < seconds := by
  intro run
  let first := (passes.head?.map AcquirePass.now).getD 0
  have hfirst : ∀ acquire ∈ passes, first ≤ acquire.now := by
    intro acquire hacquire
    cases passes with
    | nil => exact absurd hacquire not_mem_nil
    | cons head rest =>
      rcases mem_cons.mp hacquire with rfl | hrest
      · exact le_refl _
      · exact (pairwise_cons.mp hclock).1 _ (mem_map_of_mem hrest)
  have hheld : Held perSecond perMinute ((passes.getLast?.map AcquirePass.now).getD first) run :=
    (Held.start perSecond perMinute first).afterPasses hsecond hminute hclock hfirst
  refine ⟨hheld.second, hheld.minute, fun last hlast => ?_, ?_, hheld.waits⟩
  · have hcalls := hheld.calls
    rw [hlast] at hcalls
    exact hcalls
  · rw [hheld.calls]
    exact recent_sorted hheld.sorted

/-- Three passes of two callers, one grant in a second. -/
theorem webSocketRateLimiter_safe_two :
    let run := (AcquireRun.start 1 2).afterPasses [⟨0, 0⟩, ⟨1, 1 / 2⟩, ⟨1, 1⟩]
    run.log.map Prod.snd = [.granted, .sleeps (1 / 2), .granted] ∧
    ∀ t, (within 1 t run.grants).length ≤ 1 := by
  have hsafe := webSocketRateLimiter_safe 1 2 (by decide) (by decide)
    [⟨0, 0⟩, ⟨1, 1 / 2⟩, ⟨1, 1⟩] (by decide +kernel)
  exact ⟨by decide +kernel, hsafe.1⟩

end Goodmoneying.Analysis.WebSocket
