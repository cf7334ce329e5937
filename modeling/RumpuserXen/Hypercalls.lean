import RumpuserXen.System

/-
  The clock and the parameters of the rump hypervisor interface

  `rumpuser_clock_gettime` splits `NOW()`, the nanoseconds of the system
  time, into seconds and nanoseconds through unsigned 64-bit arithmetic, and
  ignores which clock is asked for; `rumpuser_clock_sleep` with
  `RUMPUSER_CLOCK_ABSMONO` joins such a pair back into the `s_time_t`
  deadline. `rumpuser_getparam` looks a name up in `envtab` and copies the
  value with its NUL into a buffer of `blen` bytes.

  What is proved:
    1. `gettime_absmono_round_trip` — for every system time `0 < NOW() < 2^63`
       the pair `rumpuser_clock_gettime` returns is normalised
       (`0 <= nsec < 10^9`) and stands for `NOW()` exactly, and
       `rumpuser_clock_sleep(RUMPUSER_CLOCK_ABSMONO, sec, nsec)` with it
       parks the caller with the deadline `NOW()`, due at once;
    2. `getparam_answers` — for every name and every buffer length,
       `rumpuser_getparam` answers a name of `envtab` with its value and NUL
       when they fit and `E2BIG` when not, answers every other name
       `ENOENT`, and never writes more than `blen` bytes.
-/

namespace RumpuserXen

/-! ## `rumpuser_clock_gettime` -/

/-- `rumpuser_clock_gettime(which, &sec, &nsec)` at the system time `now`:
`*sec = time / (1000*1000*1000ULL)` and `*nsec = time % (1000*1000*1000ULL)`,
computed on the `unsigned long long` value of `time` and stored in the
signed 64-bit `*sec` and `*nsec`. It returns 0, whatever `which`. -/
def rumpuserClockGettime (now : Int) : Int × Int :=
  let t := now % 2 ^ 64
  (toSTime (t / 1000000000), toSTime (t % 1000000000))

theorem toSTime_of_lt {x : Int} (h0 : 0 ≤ x) (h1 : x < 2 ^ 63) : toSTime x = x := by
  unfold toSTime
  rw [Int.emod_eq_of_lt h0 (by omega), if_pos h1]

/-- **The time read and the ABSMONO deadline agree.** For every state whose
clock reads `0 < NOW() < 2^63`, the seconds and nanoseconds that
`rumpuser_clock_gettime` returns are normalised and stand for `NOW()`
exactly; `rumpuser_clock_sleep(RUMPUSER_CLOCK_ABSMONO, sec, nsec)` with them
parks the caller, not runnable, with the deadline `NOW()`, so that it is due
at once. -/
theorem gettime_absmono_round_trip (s : Sys) (h0 : 0 < s.now) (h1 : s.now < 2 ^ 63) :
    0 ≤ (rumpuserClockGettime s.now).1 ∧ 0 ≤ (rumpuserClockGettime s.now).2 ∧
    (rumpuserClockGettime s.now).2 < 1000000000 ∧
    (rumpuserClockGettime s.now).1 * 1000000000 + (rumpuserClockGettime s.now).2 = s.now ∧
    ((s.clockSleep .absmono (rumpuserClockGettime s.now).1 (rumpuserClockGettime s.now).2).th s.cur).wakeupTime =
      s.now ∧
    ((s.clockSleep .absmono (rumpuserClockGettime s.now).1 (rumpuserClockGettime s.now).2).th s.cur).isRunnable =
      false ∧
    ((s.clockSleep .absmono (rumpuserClockGettime s.now).1 (rumpuserClockGettime s.now).2).th s.cur).due s.now := by
  have ht : s.now % 2 ^ 64 = s.now := Int.emod_eq_of_lt h0.le (by omega)
  have hsec : (rumpuserClockGettime s.now).1 = s.now / 1000000000 := by
    simp only [rumpuserClockGettime, ht]
    exact toSTime_of_lt (Int.ediv_nonneg h0.le (by decide)) (by omega)
  have hnsec : (rumpuserClockGettime s.now).2 = s.now % 1000000000 := by
    simp only [rumpuserClockGettime, ht]
    exact toSTime_of_lt (Int.emod_nonneg _ (by decide)) (by omega)
  have hd : absmonoDeadline (s.now / 1000000000) (s.now % 1000000000) = s.now := by
    rw [absmonoDeadline, Int.ediv_add_emod', ht, toSTime_of_lt h0.le h1]
  simp only [Sys.clockSleep, Sys.schedule_th, Sys.upd_th, Function.update_same, Thread.clearRunnable_wakeupTime,
    Thread.isRunnable_clearRunnable, Thread.due, hsec, hnsec, hd]
  refine ⟨Int.ediv_nonneg h0.le (by decide), Int.emod_nonneg _ (by decide), Int.emod_lt_of_pos _ (by decide),
    Int.ediv_add_emod' _ _, ?_⟩
  simp [h0.ne']

/-- At one nanosecond past boot the pair is `(0, 1)`, and the caller is due at once. -/
theorem gettime_absmono_round_trip_one :
    0 < ({ init with now := 1 } : Sys).now ∧ ({ init with now := 1 } : Sys).now < 2 ^ 63 ∧
    rumpuserClockGettime ({ init with now := 1 } : Sys).now = (0, 1) ∧
    0 ≤ (rumpuserClockGettime ({ init with now := 1 } : Sys).now).1 ∧
    0 ≤ (rumpuserClockGettime ({ init with now := 1 } : Sys).now).2 ∧
    (rumpuserClockGettime ({ init with now := 1 } : Sys).now).2 < 1000000000 ∧
    (rumpuserClockGettime ({ init with now := 1 } : Sys).now).1 * 1000000000 +
      (rumpuserClockGettime ({ init with now := 1 } : Sys).now).2 = ({ init with now := 1 } : Sys).now ∧
    ((({ init with now := 1 } : Sys).clockSleep .absmono (rumpuserClockGettime ({ init with now := 1 } : Sys).now).1
      (rumpuserClockGettime ({ init with now := 1 } : Sys).now).2).th ({ init with now := 1 } : Sys).cur).wakeupTime =
      ({ init with now := 1 } : Sys).now ∧
    ((({ init with now := 1 } : Sys).clockSleep .absmono (rumpuserClockGettime ({ init with now := 1 } : Sys).now).1
      (rumpuserClockGettime ({ init with now := 1 } : Sys).now).2).th ({ init with now := 1 } : Sys).cur).isRunnable =
      false ∧
    ((({ init with now := 1 } : Sys).clockSleep .absmono (rumpuserClockGettime ({ init with now := 1 } : Sys).now).1
      (rumpuserClockGettime ({ init with now := 1 } : Sys).now).2).th ({ init with now := 1 } : Sys).cur).due
      ({ init with now := 1 } : Sys).now :=
  ⟨by decide, by decide, by decide, gettime_absmono_round_trip _ (by decide) (by decide)⟩

/-! ## `rumpuser_getparam` -/

/-- `RUMPUSER_PARAM_NCPU` (rumpuser.h) -/
def rumpuserParamNcpu : String := "_RUMPUSER_NCPU"
/-- `RUMPUSER_PARAM_HOSTNAME` (rumpuser.h) -/
def rumpuserParamHostname : String := "_RUMPUSER_HOSTNAME"

/-- `envtab`, up to its `{ NULL, NULL }` end mark. -/
def envtab : List (String × String) :=
  [(rumpuserParamNcpu, "1"), (rumpuserParamHostname, "rump4xen"), ("RUMP_VERBOSE", "1"), ("RUMP_MEMLIMIT", "8m")]

/-- `E2BIG` -/
def e2big : Int := 7
/-- `ENOENT` -/
def enoent : Int := 2

/-- The loop of `rumpuser_getparam` over the entries `tab`: the status, and
the bytes `strcpy` writes to `buf`, the value and its NUL. The values of
`envtab` are ASCII, so that `length` is `strlen`. -/
def getparamLoop (name : String) (blen : Nat) : List (String × String) → Int × List Char
  | [] => (enoent, [])
  | (n, v) :: tab =>
    if name = n then
      if blen < v.length + 1 then (e2big, []) else (0, v.data ++ [Char.ofNat 0])
    else getparamLoop name blen tab

/-- `rumpuser_getparam(name, buf, blen)` -/
def rumpuserGetparam (name : String) (blen : Nat) : Int × List Char := getparamLoop name blen envtab

section
variable {name : String} {blen : Nat}

/-- The answer to a name of the table, whose names are distinct. -/
theorem getparamLoop_of_mem {v : String} : ∀ {tab : List (String × String)}, (tab.map Prod.fst).Nodup →
    (name, v) ∈ tab →
    getparamLoop name blen tab = if blen < v.length + 1 then (e2big, []) else (0, v.data ++ [Char.ofNat 0])
  | [], _, hm => absurd hm (List.not_mem_nil _)
  | (n, w) :: tab, hd, hm => by
    simp only [List.map_cons, List.nodup_cons] at hd
    rcases List.mem_cons.1 hm with he | hm
    · obtain ⟨rfl, rfl⟩ := Prod.mk.inj he
      simp [getparamLoop]
    · have hn : name ≠ n := fun e => hd.1 (e ▸ List.mem_map_of_mem Prod.fst hm)
      rw [getparamLoop, if_neg hn, getparamLoop_of_mem hd.2 hm]

theorem getparamLoop_of_not_mem : ∀ {tab : List (String × String)}, (∀ v, (name, v) ∉ tab) →
    getparamLoop name blen tab = (enoent, [])
  | [], _ => rfl
  | (n, w) :: tab, hm => by
    have hn : name ≠ n := fun e => hm w (e ▸ List.mem_cons_self _ _)
    rw [getparamLoop, if_neg hn, getparamLoop_of_not_mem fun v h => hm v (List.mem_cons_of_mem _ h)]

theorem getparamLoop_length : ∀ tab : List (String × String), (getparamLoop name blen tab).2.length ≤ blen
  | [] => Nat.zero_le _
  | (n, v) :: tab => by
    unfold getparamLoop
    split_ifs with h1 h2
    · exact Nat.zero_le _
    · simp only [List.length_append, List.length_singleton]
      exact Nat.le_of_not_lt h2
    · exact getparamLoop_length tab

/-- **`rumpuser_getparam` answers from `envtab` and stays inside the buffer.**
For every name and every buffer length: a name of `envtab` gets its value and
NUL with the status 0 when they fit in `blen` bytes, and `E2BIG` with nothing
written when not; every other name gets `ENOENT`; and no answer writes more
than `blen` bytes. -/
theorem getparam_answers (name : String) (blen : Nat) :
    (rumpuserGetparam name blen).2.length ≤ blen ∧
    (∀ v, (name, v) ∈ envtab →
      rumpuserGetparam name blen = if blen < v.length + 1 then (e2big, []) else (0, v.data ++ [Char.ofNat 0])) ∧
    ((∀ v, (name, v) ∉ envtab) → rumpuserGetparam name blen = (enoent, [])) :=
  ⟨getparamLoop_length envtab, fun _ hm => getparamLoop_of_mem (by decide) hm, getparamLoop_of_not_mem⟩

example : rumpuserGetparam "_RUMPUSER_HOSTNAME" 8 = (e2big, []) := by decide

end

end RumpuserXen
