import Mathlib.Logic.Function.Basic

/- The thread descriptor of the Mini-OS scheduler (`struct thread`, sched.h),
   its flag word, and where a thread can stand between two steps of the system.

   The flag word is the `uint32_t` of the source, a `BitVec 32`, and the five
   flags are its literal masks. `hasFlag_*` turn a test of one mask into a test
   of one bit, so that every later proof reads `set_runnable`, `clear_runnable`
   and the `|=`/`&= ~` updates bit by bit (`simp`).

   The descriptor holds what sched.c stores in `struct thread`; the thread's
   execution context (`Ctx`: the point it will resume at, and its locals that
   live across a `schedule()` call) is kept apart. A thread is running
   (`Pc.run k`: the current thread, about to execute the code at `k`), parked
   inside `schedule()` (`Pc.sched k`: when that call returns, the thread goes
   on at `k`), or created and never run (`Pc.fresh k`: its context starts the
   entry function at `k`). `Cont` lists every such point of sched.c and
   rumphyper_base.c. -/
namespace RumpuserXen

/-- A thread: the address of its descriptor. `create_thread` never hands out
one that is in use, so the model gives each new thread a fresh number. -/
abbrev Tid := Nat

/-! ## The flag word (sched.h) -/

/-- `RUNNABLE_FLAG` -/
def runnableFlag : BitVec 32 := 0x00000001#32
/-- `THREAD_MUSTJOIN` -/
def threadMustjoin : BitVec 32 := 0x00000002#32
/-- `THREAD_JOINED` -/
def threadJoined : BitVec 32 := 0x00000004#32
/-- `THREAD_EXTSTACK` -/
def threadExtstack : BitVec 32 := 0x00000008#32
/-- `THREAD_TIMEDOUT` -/
def threadTimedout : BitVec 32 := 0x00000010#32

/-- `flags & mask` as a C condition. -/
def hasFlag (f m : BitVec 32) : Bool := f &&& m != 0

theorem hasFlag_twoPow (f : BitVec 32) {k : Nat} (hk : k < 32) :
    hasFlag f (BitVec.twoPow 32 k) = f.getLsbD k := by
  unfold hasFlag
  by_cases h : f.getLsbD k
  · simp only [h, bne_iff_ne, ne_eq]
    intro h0
    have := congrArg (fun x => x.getLsbD k) h0
    simp [BitVec.getLsbD_twoPow, hk, h] at this
  · simp only [h, bne_eq_false_iff_eq]
    apply BitVec.eq_of_getLsbD_eq
    intro i
    simp only [BitVec.getLsbD_and, BitVec.getLsbD_twoPow, BitVec.getLsbD_zero]
    by_cases hi : (i : Nat) = k
    · subst hi; simp [h]
    · simp [hi, Ne.symm hi]

theorem getLsbD_mask {m : BitVec 32} {k : Nat} (hk : k < 32) (hm : m = BitVec.twoPow 32 k)
    (i : Nat) : m.getLsbD i = decide (k = i) := by
  simp [hm, BitVec.getLsbD_twoPow, hk]

@[simp] theorem getLsbD_runnableFlag (i : Nat) : runnableFlag.getLsbD i = decide (0 = i) :=
  getLsbD_mask (by decide) (by decide) i
@[simp] theorem getLsbD_threadMustjoin (i : Nat) : threadMustjoin.getLsbD i = decide (1 = i) :=
  getLsbD_mask (by decide) (by decide) i
@[simp] theorem getLsbD_threadJoined (i : Nat) : threadJoined.getLsbD i = decide (2 = i) :=
  getLsbD_mask (by decide) (by decide) i
@[simp] theorem getLsbD_threadExtstack (i : Nat) : threadExtstack.getLsbD i = decide (3 = i) :=
  getLsbD_mask (by decide) (by decide) i
@[simp] theorem getLsbD_threadTimedout (i : Nat) : threadTimedout.getLsbD i = decide (4 = i) :=
  getLsbD_mask (by decide) (by decide) i

@[simp] theorem hasFlag_runnableFlag (f : BitVec 32) : hasFlag f runnableFlag = f.getLsbD 0 :=
  hasFlag_twoPow f (k := 0) (by decide)
@[simp] theorem hasFlag_threadMustjoin (f : BitVec 32) : hasFlag f threadMustjoin = f.getLsbD 1 :=
  hasFlag_twoPow f (k := 1) (by decide)
@[simp] theorem hasFlag_threadJoined (f : BitVec 32) : hasFlag f threadJoined = f.getLsbD 2 :=
  hasFlag_twoPow f (k := 2) (by decide)
@[simp] theorem hasFlag_threadExtstack (f : BitVec 32) : hasFlag f threadExtstack = f.getLsbD 3 :=
  hasFlag_twoPow f (k := 3) (by decide)
@[simp] theorem hasFlag_threadTimedout (f : BitVec 32) : hasFlag f threadTimedout = f.getLsbD 4 :=
  hasFlag_twoPow f (k := 4) (by decide)

/-! ## Program points -/

/-- Who called `dosleep`: `msleep`/`absmsleep` return its result, the
`RUMPUSER_CLOCK_RELWALL` branch of `rumpuser_clock_sleep` drops it. -/
inductive SleepCaller where
  | msleep
  | clock
  deriving DecidableEq, Repr

/-- Who called `devopen`: `rumpuser_open` with its mode, or `rumpuser_getfileinfo`. -/
inductive DevCaller where
  | open (mode : Nat)
  | getfileinfo
  deriving DecidableEq, Repr

/-- The arguments of `rumpuser_bio`. -/
structure BioArgs where
  fd : Int
  op : Nat
  data : Nat
  dlen : Nat
  off : Int
  done : Nat
  arg : Nat
  deriving DecidableEq, Repr

/-- The points of the code at which a thread goes on. -/
inductive Cont where
  /-- The caller's own code (the rump kernel), which may call any entry point. -/
  | user
  /-- `idle_thread_fn`: `block(current); schedule();`. -/
  | idle
  /-- `exit_thread`, after the gate's `schedule()`: re-mask and recheck `THREAD_MUSTJOIN`. -/
  | exitGate
  /-- `exit_thread`, after the final `schedule()`: "schedule() returned!". -/
  | exitDead
  /-- `join_thread(t)`, after the loop's `schedule()`: dequeue, re-mask, recheck `THREAD_JOINED`. -/
  | joinLoop (t : Tid)
  /-- `dosleep`, after its `schedule()`. -/
  | sleep (c : SleepCaller)
  /-- `rumpuser_clock_sleep(RUMPUSER_CLOCK_ABSMONO)`, after its `schedule()`. -/
  | absmono
  /-- `devopen`, inside `init_blkfront` for slot `num`. -/
  | devopenInit (num : Nat) (c : DevCaller)
  /-- `rumpuser_close`, inside `shutdown_blkfront`. -/
  | shutdownWait
  /-- `rumpuser_bio`, before the unlocked test of `bio_inited`. -/
  | bioInit (a : BioArgs)
  /-- `rumpuser_bio`, before taking `bio_mtx` for the second test. -/
  | bioLock (a : BioArgs)
  /-- `rumpuser_bio`, after setting `bio_inited`, before `create_thread("biopoll", ...)`. -/
  | bioSpawn (a : BioArgs)
  /-- `rumpuser_bio`, after the lazy initialisation, before the submission. -/
  | bioSubmit (a : BioArgs)
  /-- `biothread`, at its entry. -/
  | pumpStart
  /-- `biothread`, at the head of its outer loop. -/
  | pumpTop
  /-- `biothread`, after the `schedule()` inside `rumpuser_cv_wait_nowrap`. -/
  | pumpCv
  /-- `biothread`, at the poll of every slot with outstanding requests. -/
  | pumpPoll
  /-- `biothread`, after the poll loop's `schedule()`: re-mask and poll again. -/
  | pumpResave
  deriving DecidableEq, Repr

/-- The points of `rumpuser_bio` outside the `bio_mtx` critical sections, where
the caller may be descheduled. -/
def Cont.yieldable : Cont → Bool
  | .bioInit _ | .bioLock _ | .bioSpawn _ | .bioSubmit _ => true
  | _ => false

/-- The points of `biothread`. -/
def Cont.isPump : Cont → Bool
  | .pumpStart | .pumpTop | .pumpCv | .pumpPoll | .pumpResave => true
  | _ => false

/-- Where a thread stands between two steps. -/
inductive Pc where
  | run (k : Cont)
  | sched (k : Cont)
  | fresh (k : Cont)
  deriving DecidableEq, Repr

/-- The code point of a thread, whatever its state. -/
def Pc.cont : Pc → Cont
  | .run k | .sched k | .fresh k => k

@[simp] theorem Pc.cont_run (k : Cont) : (Pc.run k).cont = k := rfl
@[simp] theorem Pc.cont_sched (k : Cont) : (Pc.sched k).cont = k := rfl
@[simp] theorem Pc.cont_fresh (k : Cont) : (Pc.fresh k).cont = k := rfl

/-- The thread is on the CPU. -/
@[simp] def Pc.isRun : Pc → Bool
  | .run _ => true
  | _ => false

/-! ## The descriptor and the execution context -/

/-- `struct thread`, the fields the scheduler reads and writes. -/
structure Thread where
  flags : BitVec 32
  wakeupTime : Int
  stack : Nat
  cookie : Nat
  deriving DecidableEq, Repr

/-- Where a thread stands in its code, and its locals that live across a
`schedule()` call: the `flags` of `local_irq_save` in `exit_thread`,
`join_thread` and `biothread`, and the value (and out-parameters) of the
entry point it last returned from. -/
structure Ctx where
  pc : Pc
  savedIrq : Bool
  ret : Int
  out : List Int
  deriving DecidableEq, Repr

@[simp] theorem update_flags (f : Tid → Thread) (t u : Tid) (b : Thread) :
    (Function.update f t b u).flags = if u = t then b.flags else (f u).flags := by
  by_cases h : u = t
  · subst h; simp
  · simp [h]

@[simp] theorem update_wakeupTime (f : Tid → Thread) (t u : Tid) (b : Thread) :
    (Function.update f t b u).wakeupTime = if u = t then b.wakeupTime else (f u).wakeupTime := by
  by_cases h : u = t
  · subst h; simp
  · simp [h]

@[simp] theorem update_cookie (f : Tid → Thread) (t u : Tid) (b : Thread) :
    (Function.update f t b u).cookie = if u = t then b.cookie else (f u).cookie := by
  by_cases h : u = t
  · subst h; simp
  · simp [h]

@[simp] theorem update_pc (f : Tid → Ctx) (t u : Tid) (c : Ctx) :
    (Function.update f t c u).pc = if u = t then c.pc else (f u).pc := by
  by_cases h : u = t
  · subst h; simp
  · simp [h]

/-- The descriptor behind a number no thread has been given. -/
def Thread.none : Thread := { flags := 0, wakeupTime := 0, stack := 0, cookie := 0 }

/-- The context of a thread that has not run. -/
@[simps] def Ctx.start (k : Cont) : Ctx := { pc := .fresh k, savedIrq := false, ret := 0, out := [] }

/-- `is_runnable` -/
def Thread.isRunnable (th : Thread) : Bool := hasFlag th.flags runnableFlag

/-- `set_runnable` -/
@[simps] def Thread.setRunnable (th : Thread) : Thread := { th with flags := th.flags ||| runnableFlag }

/-- `clear_runnable` -/
@[simps] def Thread.clearRunnable (th : Thread) : Thread := { th with flags := th.flags &&& ~~~runnableFlag }

/-- `wake`: `wakeup_time = 0; set_runnable(thread);` -/
@[simps] def Thread.wake (th : Thread) : Thread :=
  { th with wakeupTime := 0, flags := th.flags ||| runnableFlag }

/-- `block`: `wakeup_time = 0; clear_runnable(thread);` -/
@[simps] def Thread.block (th : Thread) : Thread :=
  { th with wakeupTime := 0, flags := th.flags &&& ~~~runnableFlag }

@[simp] theorem Thread.isRunnable_wake (th : Thread) : th.wake.isRunnable = true := by
  simp [Thread.isRunnable]

@[simp] theorem Thread.isRunnable_block (th : Thread) : th.block.isRunnable = false := by
  simp [Thread.isRunnable]

@[simp] theorem Thread.isRunnable_setRunnable (th : Thread) : th.setRunnable.isRunnable = true := by
  simp [Thread.isRunnable]

@[simp] theorem Thread.isRunnable_clearRunnable (th : Thread) :
    th.clearRunnable.isRunnable = false := by
  simp [Thread.isRunnable]

end RumpuserXen
