import RumpuserXen.Thread

/- One pass of `schedule()`'s selection loop (sched.c, the `TAILQ_FOREACH_SAFE`
   over `thread_list`), as a function of the run list, the descriptors and the
   time `now` read at the top of the pass.

   `scan_eq` is its specification: the pass selects the first thread of the
   list that is `due` (runnable, or asleep with a deadline that has passed),
   and the only descriptor it writes is that thread's, through `expire`. Every
   fact about selection later in the development is read off this lemma. -/
namespace RumpuserXen

/-- `SECONDS` -/
def seconds (n : Int) : Int := n * 1000000000

/-- `MILLISECS` -/
def millisecs (n : Int) : Int := n * 1000000

/-- The first test of the scan on one thread: a sleeper whose deadline has
passed gets `THREAD_TIMEDOUT` and is woken. -/
def expire (now : Int) (x : Thread) : Thread :=
  if !x.isRunnable && x.wakeupTime != 0 && x.wakeupTime ≤ now then
    ({ x with flags := x.flags ||| threadTimedout } : Thread).wake
  else x

/-- The `min_wakeup_time` update of the scan on one thread. -/
def nextMin (now : Int) (x : Thread) (m : Int) : Int :=
  if !x.isRunnable && x.wakeupTime != 0 && !decide (x.wakeupTime ≤ now) && decide (x.wakeupTime < m) then
    x.wakeupTime
  else m

/-- One pass: the descriptors after it, the selected thread, and the deadline
for `block_domain`. A thread that stays not runnable was not expired, so the
pass writes no descriptor but the selected one's. -/
def scan (now : Int) : List Tid → (Tid → Thread) → Int → (Tid → Thread) × Option Tid × Int
  | [], th, m => (th, none, m)
  | t :: rest, th, m =>
    if (expire now (th t)).isRunnable then
      (Function.update th t (expire now (th t)), some t, nextMin now (th t) m)
    else scan now rest th (nextMin now (th t) m)

/-- A thread the scan would take: runnable, or asleep past its deadline. -/
def Thread.due (now : Int) (x : Thread) : Bool :=
  x.isRunnable || (x.wakeupTime != 0 && decide (x.wakeupTime ≤ now))

theorem expire_isRunnable (now : Int) (x : Thread) :
    (expire now x).isRunnable = x.due now := by
  unfold expire Thread.due
  by_cases hr : x.isRunnable <;> by_cases hw : x.wakeupTime = 0 <;>
    by_cases hn : x.wakeupTime ≤ now <;> simp [hr, hw, hn]

theorem expire_of_isRunnable {now : Int} {x : Thread} (h : x.isRunnable = true) :
    expire now x = x := by
  simp [expire, h]

/-- **The scan selects the first due thread** and writes only its descriptor. -/
theorem scan_eq (now : Int) (l : List Tid) (th : Tid → Thread) (m : Int) :
    (scan now l th m).2.1 = l.find? (fun t => (th t).due now) ∧
      (scan now l th m).1 = match l.find? (fun t => (th t).due now) with
        | some n => Function.update th n (expire now (th n))
        | none => th := by
  induction l generalizing m with
  | nil => simp [scan]
  | cons t rest ih =>
    by_cases h : (th t).due now
    · simp [scan, expire_isRunnable, h]
    · simp only [scan, expire_isRunnable, h, List.find?_cons, Bool.false_eq_true, if_false]
      exact ih _

theorem scan_sel (now : Int) (l : List Tid) (th : Tid → Thread) (m : Int) :
    (scan now l th m).2.1 = l.find? (fun t => (th t).due now) :=
  (scan_eq now l th m).1

theorem scan_mem {now : Int} {l : List Tid} {th : Tid → Thread} {m : Int} {n : Tid}
    (h : (scan now l th m).2.1 = some n) : n ∈ l := by
  rw [scan_sel] at h
  exact List.mem_of_find?_eq_some h

theorem scan_due {now : Int} {l : List Tid} {th : Tid → Thread} {m : Int} {n : Tid}
    (h : (scan now l th m).2.1 = some n) : (th n).due now = true := by
  rw [scan_sel] at h
  exact List.find?_some (p := fun t => (th t).due now) h

theorem scan_th_some {now : Int} {l : List Tid} {th : Tid → Thread} {m : Int} {n : Tid}
    (h : (scan now l th m).2.1 = some n) :
    (scan now l th m).1 = Function.update th n (expire now (th n)) := by
  rw [(scan_eq now l th m).2, ← scan_sel, h]

theorem scan_th_none {now : Int} {l : List Tid} {th : Tid → Thread} {m : Int}
    (h : (scan now l th m).2.1 = none) : (scan now l th m).1 = th := by
  rw [(scan_eq now l th m).2, ← scan_sel, h]

/-- A pass writes the descriptor of no thread but the one it selects. -/
theorem scan_th_ne {now : Int} {l : List Tid} {th : Tid → Thread} {m : Int} {u : Tid}
    (h : (scan now l th m).2.1 ≠ some u) : (scan now l th m).1 u = th u := by
  cases hs : (scan now l th m).2.1 with
  | none => rw [scan_th_none hs]
  | some n =>
    rw [hs] at h
    rw [scan_th_some hs, Function.update_noteq (fun e => h (by rw [e]))]

/-- The timeout branch on a thread the scan takes: a runnable thread is left
as it is; a sleeper past its deadline gets `THREAD_TIMEDOUT` and
`RUNNABLE_FLAG`, and loses its deadline. -/
theorem expire_of_due {now : Int} {x : Thread} (h : x.due now = true) :
    expire now x = if x.isRunnable then x
      else { x with flags := x.flags ||| threadTimedout ||| runnableFlag, wakeupTime := 0 } := by
  cases hr : x.isRunnable
  · simp only [Thread.due, hr, Bool.false_or, Bool.and_eq_true, bne_iff_ne, decide_eq_true_eq] at h
    simp [expire, hr, h.1, h.2, Thread.wake]
  · simp [expire, hr]

/-- The deadline of a pass that selects no thread: at most `m`, at most the
deadline of every sleeper on the list, and `m` or one of those deadlines. -/
theorem scan_deadline (now : Int) (th : Tid → Thread) : ∀ (l : List Tid) (m : Int),
    (scan now l th m).2.1 = none →
    (scan now l th m).2.2 ≤ m ∧
    (∀ t ∈ l, (th t).isRunnable = false → (th t).wakeupTime ≠ 0 →
      (scan now l th m).2.2 ≤ (th t).wakeupTime) ∧
    ((scan now l th m).2.2 = m ∨ ∃ t ∈ l, (th t).isRunnable = false ∧ (th t).wakeupTime ≠ 0 ∧
      (scan now l th m).2.2 = (th t).wakeupTime)
  | [], m, _ => by simp [scan]
  | t :: rest, m, h => by
    have hd : (th t).due now = false := by
      by_contra hd; simp [scan, expire_isRunnable, hd] at h
    simp only [scan, expire_isRunnable, hd, Bool.false_eq_true, if_false] at h ⊢
    obtain ⟨hle, hall, hone⟩ := scan_deadline now th rest _ h
    simp only [Thread.due, Bool.or_eq_false_iff, Bool.and_eq_false_iff, bne_eq_false_iff_eq,
      decide_eq_false_iff_not, Int.not_le] at hd
    have hmin : nextMin now (th t) m ≤ m ∧ ((th t).isRunnable = false → (th t).wakeupTime ≠ 0 →
        nextMin now (th t) m ≤ (th t).wakeupTime) := by
      unfold nextMin; split_ifs <;> simp_all <;> omega
    refine ⟨Int.le_trans hle hmin.1, fun u hu hr hw => ?_, ?_⟩
    · rcases List.mem_cons.1 hu with rfl | hu
      · exact Int.le_trans hle (hmin.2 hr hw)
      · exact hall u hu hr hw
    · rcases hone with he | ⟨u, hu, hr, hw, he⟩
      · rw [he]; unfold nextMin; split_ifs with hc
        · exact .inr ⟨t, List.mem_cons_self _ _, by simp_all, by simp_all, rfl⟩
        · exact .inl rfl
      · exact .inr ⟨u, List.mem_cons_of_mem _ hu, hr, hw, he⟩

/-- The selected thread moves to the tail: the threads before it in the list,
none of them due, then those after it. -/
theorem erase_of_find? {p : Tid → Bool} {l : List Tid} {n : Tid} (h : l.find? p = some n) :
    ∃ pre post, l = pre ++ n :: post ∧ (∀ t ∈ pre, p t = false) ∧ l.erase n = pre ++ post := by
  obtain ⟨hn, pre, post, rfl, hpre⟩ := List.find?_eq_some.1 h
  have hnp : n ∉ pre := fun hm => by simpa [hn] using hpre n hm
  exact ⟨pre, post, rfl, fun t ht => by simpa using hpre t ht,
    by rw [List.erase_append_right _ hnp, List.erase_cons_head]⟩

end RumpuserXen
