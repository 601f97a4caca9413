import Goodmoneying.Program.GatewayRateLimit

/-!
# The request limiter holds its limits

What one hold of the limiter's lock does, and the invariant it keeps: the queue of a group
is the end of what the group was granted, so no window of the group ever holds more grants
than its limit; and the deadline a group is blocked until only moves forward. The age of a grant is
a rounded difference: a grant may leave the window a rounding before it is a window old
(`groupRateLimiter_rounded_window`), and no more than that (`within_sublist_elapsed`).
-/

namespace Goodmoneying.Analysis.Gateway

open List Library Program.Gateway

variable {group : String} {limiter' : GroupRateLimiter}
variable (digits : DigitTable) (limiter : GroupRateLimiter)

/-! ## The age of a grant -/

/-- No grant grows younger. -/
theorem elapsed_mono (call : ℚ) : Monotone fun now => elapsed now call :=
  fun _ _ h => roundDouble_mono (sub_le_sub_right h call)

/-- The grants in a window shortened by its last bit are younger than the window. -/
theorem within_sublist_elapsed (window t : ℚ) (log : List ℚ) :
    (SlidingWindow.within (window * (1 - 1 / 2 ^ 53)) t log).Sublist
      (SlidingWindow.withinBy elapsed window t log) := by
  refine monotone_filter_right log fun call hcall => ?_
  simp only [decide_eq_true_eq] at hcall ⊢
  obtain ⟨hlt, hle⟩ := hcall
  refine ⟨?_, hle⟩
  rcases hle.eq_or_lt with rfl | hbefore
  · rw [elapsed, sub_self, roundDouble_zero]
    linarith
  · have hpos : 0 < t - call := sub_pos.mpr hbefore
    have hround := roundDouble_le_mul hpos
    unfold elapsed
    linarith

/-! ## One hold of the lock -/

/-- The limiter as it was, but for old calls dropped from the group's queue. -/
def Pruned (group : String) (now : ℚ) (limiter' : GroupRateLimiter) : Prop :=
  limiter' = limiter ∨ ∃ limit window, limiter.limits group = some (limit, window) ∧
    limiter' = limiter.withCalls group
      (SlidingWindow.pruneBy elapsed window now (limiter.calls group))

/-- A pass that grants found the group neither blocked nor full. -/
structure Grants (limiter : GroupRateLimiter) (group : String) (now : ℚ)
    (limiter' : GroupRateLimiter) (limit : ℕ) (window : ℚ) : Prop where
  limits : limiter.limits group = some (limit, window)
  unblocked : ∀ deadline, limiter.blockedUntil group = some deadline → deadline ≤ now
  room : (SlidingWindow.pruneBy elapsed window now (limiter.calls group)).length < limit
  eq : limiter' = limiter.withCalls group
    (SlidingWindow.pruneBy elapsed window now (limiter.calls group) ++ [now])

/-- A pass raises, sleeps for a positive time, or grants. -/
theorem attempt_cases (group : String) (now : ℚ) :
    (∃ error, (limiter.attempt group now).1 = .error error ∧
      Pruned limiter group now (limiter.attempt group now).2) ∨
    (∃ seconds, (limiter.attempt group now).1 = .ok (.sleeps seconds) ∧ 0 < seconds ∧
      Pruned limiter group now (limiter.attempt group now).2) ∨
    (∃ limit window, (limiter.attempt group now).1 = .ok .granted ∧
      Grants limiter group now (limiter.attempt group now).2 limit window) := by
  unfold GroupRateLimiter.attempt
  cases hlimits : limiter.limits group with
  | none => exact Or.inl ⟨_, rfl, Or.inl rfl⟩
  | some pair =>
    obtain ⟨limit, window⟩ := pair
    by_cases hblocked : now < (limiter.blockedUntil group).getD now
    · simp only [hblocked, ↓reduceIte]
      exact Or.inr (Or.inl ⟨_, rfl, roundDouble_pos (sub_pos.mpr hblocked), Or.inl rfl⟩)
    simp only [hblocked, ↓reduceIte]
    by_cases hroom : (SlidingWindow.pruneBy elapsed window now (limiter.calls group)).length < limit
    · simp only [hroom, ↓reduceIte]
      have hunblocked : ∀ deadline, limiter.blockedUntil group = some deadline →
          deadline ≤ now := by
        intro deadline hdeadline
        rw [hdeadline] at hblocked
        exact not_lt.mp hblocked
      exact Or.inr (Or.inr ⟨limit, window, trivial, hlimits, hunblocked, hroom, rfl⟩)
    simp only [hroom, ↓reduceIte]
    have hpruned : Pruned limiter group now
        (limiter.withCalls group (SlidingWindow.pruneBy elapsed window now (limiter.calls group))) :=
      Or.inr ⟨limit, window, hlimits, rfl⟩
    cases hcalls : SlidingWindow.pruneBy elapsed window now (limiter.calls group) with
    | nil =>
      rw [hcalls] at hpruned
      exact Or.inl ⟨_, rfl, hpruned⟩
    | cons first rest =>
      rw [hcalls] at hpruned
      have hwait : 0 < roundDouble (window - elapsed now first) :=
        roundDouble_pos (sub_pos.mpr (SlidingWindow.head_pruneBy_lt hcalls))
      exact Or.inr (Or.inl ⟨_, rfl, hwait, hpruned⟩)

@[simp] theorem withCalls_calls_self (group : String) (calls : List ℚ) :
    (limiter.withCalls group calls).calls group = calls :=
  Function.update_self ..

theorem withCalls_calls_of_ne {other : String} (calls : List ℚ) (h : other ≠ group) :
    (limiter.withCalls group calls).calls other = limiter.calls other :=
  Function.update_of_ne h ..

@[simp] theorem block_deadline (group : String) (asked : ℚ) :
    (limiter.block group asked).deadline group = max (limiter.deadline group) asked := by
  simp [GroupRateLimiter.deadline, GroupRateLimiter.block]

/-- `observe` leaves the limiter as it was or blocks one group. -/
theorem observe_eq_ok {digits : DigitTable} {limiter : GroupRateLimiter} {value : Option String}
    {now : ℚ} {asked : Option (String × ℚ)}
    (h : limiter.observe digits value now = .ok (asked, limiter')) :
    (asked = none ∧ limiter' = limiter) ∨ ∃ group, asked = some (group, roundDouble (now + 1)) ∧
        limiter' = limiter.block group (roundDouble (now + 1)) := by
  unfold GroupRateLimiter.observe at h
  cases hparse : parseRemainingReq digits value with
  | error error => simp [hparse, bind, Except.bind] at h
  | ok remaining =>
    simp only [hparse, bind, Except.bind] at h
    cases remaining with
    | none => exact Or.inl (by simpa [pure, Except.pure, eq_comm] using h)
    | some pair =>
      obtain ⟨group, quota⟩ := pair
      by_cases hzero : quota = 0 ∧ (limiter.limits group).isSome
      · simp only [hzero, and_self, ↓reduceIte, pure, Except.pure, Except.ok.injEq,
          Prod.mk.injEq] at h
        exact Or.inr ⟨group, h.1.symm, h.2.symm⟩
      · simp only [hzero, ↓reduceIte, pure, Except.pure, Except.ok.injEq, Prod.mk.injEq] at h
        exact Or.inl ⟨h.1.symm, h.2.symm⟩

/-! ## The invariant -/

/-- An earlier entry allows a later one: no grant before a deadline of its group, and no
deadline before an earlier one of its group. -/
def Allows : LimiterEntry → LimiterEntry → Prop
  | .blocked group _ deadline, .granted granted instant => granted = group → deadline ≤ instant
  | .blocked group _ deadline, .blocked later _ moved => later = group → deadline ≤ moved
  | _, _ => True

/-- A wait is positive, and a deadline is no earlier than what was asked for. -/
def EntrySound : LimiterEntry → Prop
  | .granted _ _ => True
  | .slept seconds => 0 < seconds
  | .blocked _ asked deadline => asked ≤ deadline

/-- What holds of a run whose clock has last read `now`. -/
structure Held (limits : String → Option (ℕ × ℚ)) (now : ℚ) (run : LimiterRun) : Prop where
  limits_eq : run.limiter.limits = limits
  tracks : ∀ group limit window, limits group = some (limit, window) →
    SlidingWindow.Tracks elapsed window now (run.grants group) (run.limiter.calls group)
  bounded : ∀ group limit window, limits group = some (limit, window) →
    SlidingWindow.BoundedBy elapsed limit window (run.grants group)
  blocked : ∀ group asked deadline, .blocked group asked deadline ∈ run.log →
    (run.limiter.blockedUntil group).isSome ∧ deadline ≤ run.limiter.deadline group
  allowed : run.log.Pairwise Allows
  sound : ∀ entry ∈ run.log, EntrySound entry

variable {limits : String → Option (ℕ × ℚ)} {now now' : ℚ} {run : LimiterRun}

theorem Held.start (limits : String → Option (ℕ × ℚ)) (now : ℚ) :
    Held limits now (.start limits) where
  limits_eq := rfl
  tracks := fun _ _ window _ => SlidingWindow.Tracks.empty elapsed window now
  bounded := fun _ limit window _ => SlidingWindow.BoundedBy.empty elapsed limit window
  blocked := fun _ _ _ h => absurd h not_mem_nil
  allowed := List.Pairwise.nil
  sound := fun _ h => absurd h not_mem_nil

theorem Held.later (hnow : now ≤ now') (h : Held limits now run) : Held limits now' run :=
  { h with tracks := fun group limit window hlimits =>
      (h.tracks group limit window hlimits).later elapsed_mono hnow }

/-- A log grows by entries that its earlier entries allow. -/
theorem allowed_append {log : List LimiterEntry} {entry : LimiterEntry}
    (h : log.Pairwise Allows) (hlast : ∀ earlier ∈ log, Allows earlier entry) :
    (log ++ [entry]).Pairwise Allows :=
  pairwise_append.mpr ⟨h, pairwise_singleton _ _, fun earlier hearlier _ hlater =>
    mem_singleton.mp hlater ▸ hlast earlier hearlier⟩

theorem grants_of_granted (run : LimiterRun) (limiter : GroupRateLimiter) (group : String)
    (instant : ℚ) : LimiterRun.grants ⟨limiter, run.log ++ [.granted group instant]⟩ group =
      run.grants group ++ [instant] := by
  simp [LimiterRun.grants, filterMap_append, LimiterEntry.grantTo]

/-- An entry that grants a group nothing leaves its grants. -/
theorem grants_of_other (run : LimiterRun) (limiter : GroupRateLimiter) (group : String)
    (entries : List LimiterEntry) (h : ∀ instant, .granted group instant ∉ entries) :
    LimiterRun.grants ⟨limiter, run.log ++ entries⟩ group = run.grants group := by
  have hnone : entries.filterMap (LimiterEntry.grantTo group) = [] := by
    rw [filterMap_eq_nil_iff]
    intro entry hentry
    cases entry with
    | granted granted instant =>
      have hne : granted ≠ group := fun heq => h instant (heq ▸ hentry)
      simp [LimiterEntry.grantTo, hne]
    | slept seconds => rfl
    | blocked group asked deadline => rfl
  simp only [LimiterRun.grants, filterMap_append, hnone, append_nil]

/-- Dropping old calls keeps what holds. -/
theorem Held.pruned (h : Held limits now run) (hpruned : Pruned run.limiter group now limiter') :
    Held limits now ⟨limiter', run.log⟩ := by
  obtain rfl | ⟨limit, window, hlimits, rfl⟩ := hpruned
  · exact h
  refine { h with tracks := fun other limit' window' hother => ?_ }
  have hold := h.tracks other limit' window' hother
  change SlidingWindow.Tracks elapsed window' now (run.grants other) (GroupRateLimiter.calls _ other)
  by_cases heq : other = group
  · subst heq
    rw [h.limits_eq, hother] at hlimits
    obtain ⟨rfl, rfl⟩ := Prod.mk.inj (Option.some.inj hlimits)
    rw [withCalls_calls_self]
    exact hold.prune
  · rw [withCalls_calls_of_ne _ _ heq]
    exact hold

/-- A positive wait keeps what holds. -/
theorem Held.slept {seconds : ℚ} (h : Held limits now run) (hpositive : 0 < seconds) :
    Held limits now ⟨run.limiter, run.log ++ [.slept seconds]⟩ := by
  have hgrants : ∀ group, LimiterRun.grants ⟨run.limiter, run.log ++ [.slept seconds]⟩ group =
      run.grants group := fun group => grants_of_other run _ group _ (by simp)
  refine ⟨h.limits_eq, ?_, ?_, ?_, allowed_append h.allowed ?_, ?_⟩
  · intro group limit window hlimits
    rw [hgrants]
    exact h.tracks group limit window hlimits
  · intro group limit window hlimits
    rw [hgrants]
    exact h.bounded group limit window hlimits
  · intro group asked deadline hmem
    exact h.blocked group asked deadline (by simpa using hmem)
  · intro earlier _
    cases earlier <;> trivial
  · intro entry hentry
    rcases mem_append.mp hentry with hentry | hentry
    · exact h.sound entry hentry
    · rw [mem_singleton.mp hentry]
      exact hpositive

/-- A grant keeps what holds. -/
theorem Held.granted {limit : ℕ} {window : ℚ} (h : Held limits now run)
    (hgrants : Grants run.limiter group now limiter' limit window) :
    Held limits now ⟨limiter', run.log ++ [.granted group now]⟩ := by
  obtain ⟨hlimits, hunblocked, hroom, rfl⟩ := hgrants
  rw [h.limits_eq] at hlimits
  have hpruned := (h.tracks group limit window hlimits).prune
  refine ⟨h.limits_eq, ?_, ?_, ?_, allowed_append h.allowed ?_, ?_⟩
  · intro other limit' window' hother
    by_cases heq : other = group
    · subst heq
      obtain ⟨rfl, rfl⟩ := Prod.mk.inj (Option.some.inj (hlimits.symm.trans hother))
      rw [grants_of_granted, withCalls_calls_self]
      exact hpruned.grant now
    · rw [grants_of_other run _ other _ (by simp [heq]), withCalls_calls_of_ne _ _ heq]
      exact h.tracks other limit' window' hother
  · intro other limit' window' hother
    by_cases heq : other = group
    · subst heq
      obtain ⟨rfl, rfl⟩ := Prod.mk.inj (Option.some.inj (hlimits.symm.trans hother))
      rw [grants_of_granted]
      exact (h.bounded other limit window hother).grant elapsed_mono hpruned hroom
    · rw [grants_of_other run _ other _ (by simp [heq])]
      exact h.bounded other limit' window' hother
  · intro other asked deadline hmem
    exact h.blocked other asked deadline (by simpa using hmem)
  · intro earlier hearlier
    cases earlier with
    | granted _ _ => trivial
    | slept _ => trivial
    | blocked other asked deadline =>
      -- The pass found the group's deadline reached.
      rintro rfl
      obtain ⟨hsome, hle⟩ := h.blocked group asked deadline hearlier
      obtain ⟨held, hheld⟩ := Option.isSome_iff_exists.mp hsome
      rw [GroupRateLimiter.deadline, hheld] at hle
      exact hle.trans (hunblocked held hheld)
  · intro entry hentry
    rcases mem_append.mp hentry with hentry | hentry
    · exact h.sound entry hentry
    · rw [mem_singleton.mp hentry]
      trivial

/-- A block keeps what holds. -/
theorem Held.blocks {asked : ℚ} (h : Held limits now run) :
    Held limits now ⟨run.limiter.block group asked,
      run.log ++ [blockEntry (run.limiter.block group asked) group asked]⟩ := by
  have hgrants : ∀ other, LimiterRun.grants ⟨run.limiter.block group asked,
      run.log ++ [blockEntry (run.limiter.block group asked) group asked]⟩ other =
      run.grants other := fun other => grants_of_other run _ other _ (by simp [blockEntry])
  refine ⟨h.limits_eq, ?_, ?_, ?_, allowed_append h.allowed ?_, ?_⟩
  · intro other limit window hlimits
    rw [hgrants]
    exact h.tracks other limit window hlimits
  · intro other limit window hlimits
    rw [hgrants]
    exact h.bounded other limit window hlimits
  · intro other asked' deadline hmem
    rcases mem_append.mp hmem with hmem | hmem
    · obtain ⟨hsome, hle⟩ := h.blocked other asked' deadline hmem
      by_cases heq : other = group
      · subst heq
        refine ⟨by simp [GroupRateLimiter.block], ?_⟩
        rw [block_deadline]
        exact hle.trans (le_max_left _ _)
      · simpa [GroupRateLimiter.block, GroupRateLimiter.deadline, Function.update_of_ne heq]
          using And.intro hsome hle
    · obtain ⟨rfl, rfl, rfl⟩ : other = group ∧ asked' = asked ∧
          deadline = (run.limiter.block group asked).deadline group := by
        simpa [blockEntry] using hmem
      exact ⟨by simp [GroupRateLimiter.block], le_rfl⟩
  · intro earlier hearlier
    cases earlier with
    | granted _ _ => trivial
    | slept _ => trivial
    | blocked other asked' deadline =>
      rintro rfl
      rw [block_deadline]
      exact (h.blocked group asked' deadline hearlier).2.trans (le_max_left _ _)
  · intro entry hentry
    rcases mem_append.mp hentry with hentry | hentry
    · exact h.sound entry hentry
    · rw [mem_singleton.mp hentry]
      change asked ≤ (run.limiter.block group asked).deadline group
      rw [block_deadline]
      exact le_max_right _ _

/-! ## Runs -/

/-- One hold of the lock keeps what holds. -/
theorem Held.after (event : LimiterEvent) (h : Held limits now run) (hnow : now ≤ event.now) :
    Held limits event.now (run.after digits event) := by
  have h := h.later hnow
  cases event with
  | acquire group instant =>
    replace h : Held limits instant run := h
    change Held limits instant _
    rcases attempt_cases run.limiter group instant with
      ⟨error, heq, hpruned⟩ | ⟨seconds, heq, hpositive, hpruned⟩ | ⟨limit, window, heq, hgrants⟩
    · have hheld := h.pruned hpruned
      simpa [LimiterRun.after, heq, attemptEntries] using hheld
    · have hheld := (h.pruned hpruned).slept hpositive
      simpa [LimiterRun.after, heq, attemptEntries] using hheld
    · have hheld := h.granted hgrants
      simpa [LimiterRun.after, heq, attemptEntries] using hheld
  | observe value instant =>
    cases hobserve : run.limiter.observe digits value instant with
    | error error => simpa [LimiterRun.after, hobserve] using h
    | ok observed =>
      obtain ⟨asked, limiter'⟩ := observed
      obtain ⟨rfl, rfl⟩ | ⟨group, rfl, rfl⟩ := observe_eq_ok hobserve
      · simpa [LimiterRun.after, hobserve] using h
      · simpa [LimiterRun.after, hobserve] using h.blocks
  | defer group seconds instant => exact h.blocks

/-- A run whose clock never goes back keeps what holds. -/
theorem Held.afterEvents (events : List LimiterEvent)
    (hclock : (events.map LimiterEvent.now).Pairwise (· ≤ ·))
    (hnow : ∀ event ∈ events, now ≤ event.now) (h : Held limits now run) :
    ∃ now', Held limits now' (run.afterEvents digits events) := by
  induction events generalizing now run with
  | nil => exact ⟨now, h⟩
  | cons event rest ih =>
    obtain ⟨hfirst, hrest⟩ := pairwise_cons.mp hclock
    exact ih hrest (fun later hlater => hfirst _ (mem_map_of_mem hlater))
      (h.after digits event (hnow event mem_cons_self))

/-- A run from the start, whatever its clock reads first. -/
theorem held_of_run (limits : String → Option (ℕ × ℚ)) (events : List LimiterEvent)
    (hclock : (events.map LimiterEvent.now).Pairwise (· ≤ ·)) :
    ∃ now, Held limits now ((LimiterRun.start limits).afterEvents digits events) := by
  cases events with
  | nil => exact ⟨0, Held.start limits 0⟩
  | cons event rest =>
    have hfirst : ∀ later ∈ event :: rest, event.now ≤ later.now := ?_
    · exact (Held.start limits event.now).afterEvents digits _ hclock hfirst
    intro later hlater
    rcases mem_cons.mp hlater with rfl | hlater
    · exact le_rfl
    · exact (pairwise_cons.mp hclock).1 _ (mem_map_of_mem hlater)

/-- One call of `"rest"` every two seconds. -/
def exampleLimits (group : String) : Option (ℕ × ℚ) :=
  if group = "rest" then some (1, 2) else none

/-- A call that waits its turn, an empty quota, and a penalty while a call sleeps. -/
def exampleCalls : List LimiterEvent :=
  [.acquire "rest" 0, .acquire "rest" (1/2), .observe (some "group=rest; min=1800; sec=0") (3/2),
    .acquire "rest" 2, .defer "rest" 3 2, .acquire "rest" (5/2), .acquire "rest" 5]

/-- Over any run of passes, observations and deferrals of any callers: no window of a group holds
more grants than its limit, by their rounded ages or by a window shortened by its last bit, no grant
comes before a deadline its group was given earlier, deadlines of a group never move back and are no
earlier than asked for, and every wait is positive.
SOURCE: rate_limit.py:154-204 -/
theorem groupRateLimiter_safe (digits : DigitTable) (limits : String → Option (ℕ × ℚ))
    (events : List LimiterEvent) (hclock : (events.map LimiterEvent.now).Pairwise (· ≤ ·)) :
    let run := (LimiterRun.start limits).afterEvents digits events
    (∀ group limit window, limits group = some (limit, window) → ∀ t,
      (SlidingWindow.withinBy elapsed window t (run.grants group)).length ≤ limit ∧
      (SlidingWindow.within (window * (1 - 1 / 2 ^ 53)) t (run.grants group)).length ≤ limit) ∧
    (∀ before after group instant, run.log = before ++ .granted group instant :: after →
      ∀ asked deadline, .blocked group asked deadline ∈ before → deadline ≤ instant) ∧
    (∀ before after group asked deadline,
      run.log = before ++ .blocked group asked deadline :: after → asked ≤ deadline ∧
        ∀ asked' earlier, .blocked group asked' earlier ∈ before → earlier ≤ deadline) ∧
    (∀ seconds, .slept seconds ∈ run.log → 0 < seconds) := by
  intro run
  obtain ⟨now, hheld⟩ := held_of_run digits limits events hclock
  refine ⟨fun group limit window hlimits t => ?_, ?_, ?_, fun seconds hmem => hheld.sound _ hmem⟩
  · have hbounded := hheld.bounded group limit window hlimits t
    exact ⟨hbounded, (within_sublist_elapsed window t _).length_le.trans hbounded⟩
  · intro before after group instant hlog asked deadline hmem
    have hallowed := hheld.allowed
    rw [hlog, pairwise_append] at hallowed
    exact hallowed.2.2 _ hmem _ mem_cons_self rfl
  · intro before after group asked deadline hlog
    have hallowed := hheld.allowed
    have hsound := hheld.sound
    rw [hlog] at hallowed hsound
    refine ⟨hsound _ (mem_append_right _ mem_cons_self), fun asked' earlier hmem => ?_⟩
    exact (pairwise_append.mp hallowed).2.2 _ hmem _ mem_cons_self rfl

/-- Two grants, with an observed block and a deferral between them. -/
theorem groupRateLimiter_safe_rest :
    let run := (LimiterRun.start exampleLimits).afterEvents .ascii exampleCalls
    run.log = [.granted "rest" 0, .slept (3/2), .blocked "rest" (5/2) (5/2), .slept (1/2),
      .blocked "rest" 5 5, .slept (5/2), .granted "rest" 5] ∧
    (∀ t, (SlidingWindow.withinBy elapsed 2 t (run.grants "rest")).length ≤ 1) ∧
    ∀ seconds, .slept seconds ∈ run.log → 0 < seconds := by
  have hsafe := groupRateLimiter_safe .ascii exampleLimits exampleCalls (by decide +kernel)
  exact ⟨by decide +kernel, fun t => (hsafe.1 "rest" 1 2 rfl t).1, hsafe.2.2.2⟩

/-- A call just after a quarter of a second. -/
def justAfterQuarter : ℚ := 1 / 4 + 1 / 2 ^ 54

/-- Two doubles less than a second apart whose difference is rounded to a second: of one call a
second, two are granted in one. -/
theorem groupRateLimiter_rounded_window :
    let run := (LimiterRun.start fun _ => some (1, 1)).afterEvents .ascii
      [.acquire "rest" justAfterQuarter, .acquire "rest" (5 / 4)]
    roundDouble justAfterQuarter = justAfterQuarter ∧ roundDouble (5 / 4) = 5 / 4 ∧
    justAfterQuarter ≤ 5 / 4 ∧
    ¬ (SlidingWindow.within 1 (5 / 4) (run.grants "rest")).length ≤ 1 := by
  decide +kernel

end Goodmoneying.Analysis.Gateway
