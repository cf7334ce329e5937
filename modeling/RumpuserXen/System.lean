import RumpuserXen.Scan
import RumpuserXen.Bio

/- The whole system: the threads of the Mini-OS scheduler (sched.c) running
   the code of sched.c and rumphyper_base.c on one CPU, with no preemption.

   The current thread runs until it calls `schedule()`; a step of the system is
   one such stretch of code (`Sys.call` for an entry point called from the
   caller's own code, `Sys.cont` for the code after a `schedule()` returns),
   one pass of `schedule()`'s selection loop (`Sys.pass`), or an act of the
   environment: time passes (`tick`), an event callback wakes a thread
   (`irq`, only while events are unmasked or inside `schedule()`, where
   `block_domain` lets them in), the block backend answers `init_blkfront`
   (`initDone`) or completes requests (`poll`), or the rump kernel
   deschedules a caller of `rumpuser_bio` outside `bio_mtx` (`yield`).

   A `BUG()` or an `ASSERT` that fails, and an access the C code makes out of
   its arrays or through a NULL device, stop the system (`halted`). `log` is
   what the code asks of the outside (`free_pages`, `xfree`, the block
   backend, `biodone`, `block_domain`, the scheduler hook, `printk`), with the
   milestones of the join protocol.

   Code of this repository that is not among the sources (`arch_create_thread`,
   the higher layer's `rumpuser_thread_create`, `rumpuser_cv_wait_nowrap` and
   `rumpuser_cv_signal`, `blkfront_aio_poll`) is modelled from the spec, and
   says so where it is defined. -/
namespace RumpuserXen

/-- `enum rumpclock` (rumpuser.h) -/
inductive RumpClock where
  | relwall
  | absmono
  deriving DecidableEq, Repr

/-- An `s_time_t` (`int64_t`) holding the low 64 bits of `x`. -/
def toSTime (x : Int) : Int :=
  if x % 2 ^ 64 < 2 ^ 63 then x % 2 ^ 64 else x % 2 ^ 64 - 2 ^ 64

/-- `msec = sec * 1000 + nsec / (1000*1000UL)`, stored in a `uint32_t`. -/
def relwallMsec (sec nsec : Int) : Nat :=
  ((sec * 1000 + (nsec % 2 ^ 64) / 1000000) % 2 ^ 32).toNat

/-- `sec * (1000*1000*1000ULL) + nsec`, stored in the `s_time_t` `wakeup_time`. -/
def absmonoDeadline (sec nsec : Int) : Int :=
  toSTime ((sec * 1000000000 + nsec) % 2 ^ 64)

/-- What the code asks of the outside, and the milestones of the join protocol. -/
inductive Event where
  | created (t : Tid) (entry : Cont) (joinable : Bool)
  | joinCall (w t : Tid)
  | joinReturn (w t : Tid)
  | setJoined (t : Tid)
  | clearMustjoin (w t : Tid)
  | toExited (t : Tid)
  | hook (prev next : Nat)
  | blockDomain (deadline : Int)
  | freePages (stack : Nat)
  | xfree (t : Tid)
  | printk (msg : String)
  | initBlkfront (devnum : Nat)
  | initDone (devnum : Nat) (dev : Option Nat)
  | shutdownBlkfront (dev : Option Nat)
  | bioSubmit (r : Biocb)
  /-- The backend calls the `aio_cb` of request `r`, `biocomp`, with status `ret`. -/
  | biocomp (r : Biocb) (ret : Int)
  | biodone (done arg nbytes : Nat) (err : Int)
  deriving DecidableEq, Repr

/-- The events of a completion: `aio_cb` and the `biodone` it calls. -/
def Event.isBio : Event → Bool
  | .biocomp _ _ | .biodone _ _ _ _ => true
  | _ => false

/-- Why the system stopped. -/
inductive Bug where
  /-- "Must not call schedule() with IRQs disabled" -/
  | schedIrqsDisabled
  /-- `ASSERT(joinable->flags & THREAD_MUSTJOIN)` in `join_thread` -/
  | assertFailed
  /-- an index of `blkdevs` or `blkdev_outstanding` outside `[0, NBLKDEV)` -/
  | badIndex
  /-- a NULL `blkfront_dev` handed to the backend -/
  | nullDevice
  deriving DecidableEq, Repr

/-- The entry points the caller's own code may call. -/
inductive Call where
  | createThread (stack : Option Nat) (cookie : Nat) (joinable : Bool)
  | exitThread
  | joinThread (t : Tid)
  | block
  | wake (t : Tid)
  | msleep (ms : UInt32)
  | absmsleep (ms : UInt32)
  | schedule
  | setSchedHook (f : Option Nat)
  | initMainlwp (cookie : Nat)
  | clockSleep (kind : RumpClock) (sec nsec : Int)
  | open (name : List UInt8) (mode : Nat)
  | close (fd : Int)
  | getfileinfo (name : List UInt8)
  | bio (a : BioArgs)
  deriving DecidableEq, Repr

/-- The state of the system. -/
structure Sys where
  th : Tid → Thread
  ctx : Tid → Ctx
  nextTid : Nat
  cur : Tid
  runq : List Tid
  exited : List Tid
  joinwq : List (Tid × Tid)
  irqMasked : Bool
  schedFlags : Bool
  now : Int
  hook : Option Nat
  nextPage : Nat
  blk : Blk
  bio : Bio
  halted : Option Bug
  log : List Event

namespace Sys

/-- The program point of thread `t`. -/
def pc (s : Sys) (t : Tid) : Pc := (s.ctx t).pc

/-! ## Small updates -/

/-- Apply `f` to the descriptor of `t`. -/
@[simps] def upd (s : Sys) (t : Tid) (f : Thread → Thread) : Sys :=
  { s with th := Function.update s.th t (f (s.th t)) }

/-- Thread `t` stands at `pc`. -/
@[simps] def setPc (s : Sys) (t : Tid) (pc : Pc) : Sys :=
  { s with ctx := Function.update s.ctx t { s.ctx t with pc := pc } }

@[simps] def emit (s : Sys) (e : Event) : Sys := { s with log := s.log ++ [e] }

@[simps] def halt (s : Sys) (b : Bug) : Sys := { s with halted := some b }

@[simps] def wake (s : Sys) (t : Tid) : Sys := { s with th := Function.update s.th t (s.th t).wake }

@[simps] def block (s : Sys) (t : Tid) : Sys := { s with th := Function.update s.th t (s.th t).block }

/-- `wake` the thread `o` names, if it names one. -/
@[simps] def wakeOpt (s : Sys) (o : Option Tid) : Sys :=
  { s with th := fun u => if o = some u then (s.th u).wake else s.th u }

/-- `local_irq_save(flags)` in a frame of thread `t`. -/
@[simps] def irqSave (s : Sys) (t : Tid) : Sys :=
  { s with ctx := Function.update s.ctx t { s.ctx t with savedIrq := s.irqMasked }, irqMasked := true }

/-- `local_irq_restore(flags)` in a frame of thread `t`. -/
@[simps] def irqRestore (s : Sys) (t : Tid) : Sys := { s with irqMasked := (s.ctx t).savedIrq }

/-- The current thread returns from a `void` entry point. -/
@[simps] def back (s : Sys) : Sys :=
  { s with ctx := Function.update s.ctx s.cur { s.ctx s.cur with pc := .run .user } }

/-- The current thread returns `v`, with out-parameters `out`. -/
@[simps] def retOut (s : Sys) (v : Int) (out : List Int) : Sys :=
  { s with ctx := Function.update s.ctx s.cur { s.ctx s.cur with ret := v, out := out, pc := .run .user } }

/-- The current thread returns `v`. -/
@[simps] def ret (s : Sys) (v : Int) : Sys :=
  { s with ctx := Function.update s.ctx s.cur { s.ctx s.cur with ret := v, pc := .run .user } }

/-! ## sched.c -/

/-- The entry of `schedule()` by the current thread, which goes on at `k`
when it returns: `local_irq_save(flags)`, and `BUG()` if events were masked. -/
@[simps] def schedule (s : Sys) (k : Cont) : Sys :=
  { s with ctx := Function.update s.ctx s.cur { s.ctx s.cur with pc := .sched k },
           irqMasked := true, schedFlags := s.irqMasked,
           halted := if s.irqMasked then some .schedIrqsDisabled else s.halted }

/-- One turn of the reap loop of `schedule()` in thread `prev`. -/
def reapOne (s : Sys) (prev t : Tid) : Sys :=
  if t ≠ prev then
    let s' := { s with exited := s.exited.erase t }
    let s' := if hasFlag (s.th t).flags threadExtstack then s' else s'.emit (.freePages (s.th t).stack)
    s'.emit (.xfree t)
  else s

/-- The reap loop over `exited_threads`, in thread `prev`. -/
def reap (s : Sys) (prev : Tid) : Sys := s.exited.foldl (fun s t => s.reapOne prev t) s

/-- `switch_threads(prev, next)`: the scheduler hook, if one is set, and the switch. -/
@[simps] def switchThreads (s : Sys) (n : Tid) : Sys :=
  { s with cur := n,
           log := s.log ++ if s.hook.isSome then [.hook (s.th s.cur).cookie (s.th n).cookie] else [] }

/-- Thread `n` gets the CPU: it returns from its own `schedule()`, which reaps
`exited_threads`, or it starts its entry function. -/
def resume (s : Sys) (n : Tid) : Sys :=
  match s.pc n with
  | .sched k => (s.reap n).setPc n (.run k)
  | .fresh k => s.setPc n (.run k)
  | .run _ => s

/-- The thread one pass of the selection loop would select. -/
def selected (s : Sys) : Option Tid := (scan s.now s.runq s.th (s.now + seconds 10)).2.1

/-- One pass of the selection loop of `schedule()`: select and switch, or
`block_domain` until the earliest deadline. -/
def pass (s : Sys) : Sys :=
  let r := scan s.now s.runq s.th (s.now + seconds 10)
  match r.2.1 with
  | none => s.emit (.blockDomain r.2.2)
  | some n =>
    let s1 := { s with th := r.1, runq := s.runq.erase n ++ [n], irqMasked := s.schedFlags }
    let s2 := if s.cur = n then s1 else s1.switchThreads n
    s2.resume n

/-- Modelled from the spec: `arch_create_thread` (arch/x86/sched.c, not in
this repository) makes a fresh descriptor whose context starts the entry
function at `k` on the caller's stack, adopted with `ext_stack` set, or on a
fresh stack from the page allocator. -/
@[simps] def archCreateThread (s : Sys) (k : Cont) (stack : Option Nat) : Sys :=
  { s with th := Function.update s.th s.nextTid
             { Thread.none with stack := stack.getD s.nextPage,
                                flags := if stack.isSome then threadExtstack else 0 },
           ctx := Function.update s.ctx s.nextTid (Ctx.start k),
           nextTid := s.nextTid + 1,
           nextPage := if stack.isSome then s.nextPage else s.nextPage + 1 }

/-- `create_thread`: the new thread is `s.nextTid`. -/
@[simps] def createThread (s : Sys) (cookie : Nat) (k : Cont) (stack : Option Nat) : Sys :=
  { (s.archCreateThread k stack).upd s.nextTid (fun th =>
      ({ th with flags := 0, wakeupTime := 0, cookie := cookie } : Thread).setRunnable) with
    runq := s.runq ++ [s.nextTid] }

/-- The gate of `exit_thread` and what follows it, events masked. -/
def exitGate (s : Sys) : Sys :=
  let t := s.cur
  if hasFlag (s.th t).flags threadMustjoin then
    let s := (s.upd t fun th => { th with flags := th.flags ||| threadJoined }).emit (.setJoined t)
    let s := s.irqRestore t
    let s := s.wakeOpt ((s.joinwq.find? (fun jw => jw.2 == t)).map Prod.fst)
    (s.block t).schedule .exitGate
  else
    let s := ({ s with runq := s.runq.erase t } : Sys).upd t Thread.clearRunnable
    let s := ({ s with exited := t :: s.exited } : Sys).emit (.toExited t)
    (s.irqRestore t).schedule .exitDead

/-- The loop test of `join_thread(x)` and what follows it, events masked. -/
def joinTest (s : Sys) (x : Tid) : Sys :=
  let t := s.cur
  if !hasFlag (s.th x).flags threadJoined then
    let s := ({ s.irqRestore t with joinwq := s.joinwq ++ [(t, x)] } : Sys)
    (s.block t).schedule (.joinLoop x)
  else
    let s := (s.upd x fun th => { th with flags := th.flags &&& ~~~threadMustjoin }).emit
      (.clearMustjoin t x)
    (((s.irqRestore t).wake x).back).emit (.joinReturn t x)

/-- `join_thread(x)` -/
def joinThread (s : Sys) (x : Tid) : Sys :=
  let s := (s.emit (.joinCall s.cur x)).irqSave s.cur
  if hasFlag (s.th x).flags threadMustjoin then s.joinTest x else s.halt .assertFailed

/-- `dosleep(d)` up to its `schedule()`. -/
def dosleep (s : Sys) (d : Int) (c : SleepCaller) : Sys :=
  (s.upd s.cur fun th =>
    ({ th with wakeupTime := d, flags := th.flags &&& ~~~threadTimedout } : Thread).clearRunnable).schedule
    (.sleep c)

/-- `dosleep` after its `schedule()`, and the return to its caller. -/
def sleepReturn (s : Sys) (c : SleepCaller) : Sys :=
  let rv : Int := if hasFlag (s.th s.cur).flags threadTimedout then 1 else 0
  let s := s.upd s.cur fun th => { th with flags := th.flags &&& ~~~threadTimedout }
  match c with
  | .msleep => s.ret rv
  | .clock => s.ret 0

/-- `rumpuser_clock_sleep` up to its `schedule()`. -/
def clockSleep (s : Sys) (kind : RumpClock) (sec nsec : Int) : Sys :=
  match kind with
  | .relwall => s.dosleep (s.now + millisecs (relwallMsec sec nsec)) .clock
  | .absmono =>
    (s.upd s.cur fun th => ({ th with wakeupTime := absmonoDeadline sec nsec } : Thread).clearRunnable).schedule
      .absmono

/-! ## rumphyper_base.c: block devices -/

/-- The end of `rumpuser_close` (or of `rumpuser_getfileinfo`, through its
close): `shutdown_blkfront` if the last reference went, which waits on the
backend, else return `rv`. -/
def closeEnd (s : Sys) (rv : Int) (out : List Int) (sh : Option (Option Nat)) : Sys :=
  match sh with
  | none => s.retOut rv out
  | some dev => (((s.emit (.shutdownBlkfront dev)).retOut 0 out).block s.cur).schedule .shutdownWait

/-- The caller of `devopen` goes on with its status `rv`. -/
def devopenReturn (s : Sys) (num : Nat) (c : DevCaller) (rv : Int) : Sys :=
  match c with
  | .open mode =>
    let r := s.blk.openTail num mode rv
    s.retOut r.1 r.2
  | .getfileinfo =>
    let r := s.blk.getfileinfoTail num rv
    ({ s with blk := r.1 } : Sys).closeEnd r.2.1 r.2.2.1 r.2.2.2

/-- `devopen` up to `init_blkfront`, which waits on the backend. -/
def devopen (s : Sys) (num : Nat) (c : DevCaller) : Sys :=
  match s.blk.devopenBegin num with
  | some r => ({ s with blk := r.1 } : Sys).devopenReturn num c r.2
  | none => ((s.emit (.initBlkfront (devnum num))).block s.cur).schedule (.devopenInit num c)

/-- `devopen` once `init_blkfront` answered `res`. -/
def devopenDone (s : Sys) (num : Nat) (c : DevCaller) (res : Option BlkInfo) : Sys :=
  let r := s.blk.devopenEnd num res
  (({ s with blk := r.1 } : Sys).emit (.initDone (devnum num) (r.1.devs num))).devopenReturn num c r.2

/-- `rumpuser_open` -/
def rumpuserOpen (s : Sys) (name : List UInt8) (mode : Nat) : Sys :=
  if mode &&& rumpuserOpenBio = 0 ∨ devname2num name = -1 then s.retOut enxio []
  else s.devopen (devname2num name).toNat (.open mode)

/-- `rumpuser_close` -/
def rumpuserClose (s : Sys) (fd : Int) : Sys :=
  let r := s.blk.rumpuserClose fd
  ({ s with blk := r.1 } : Sys).closeEnd r.2.1 [] r.2.2

/-- `rumpuser_getfileinfo` -/
def rumpuserGetfileinfo (s : Sys) (name : List UInt8) : Sys :=
  if devname2num name = -1 then s.retOut enxio []
  else s.devopen (devname2num name).toNat .getfileinfo

/-! ## rumphyper_base.c: block I/O -/

/-- Modelled from the spec: `rumpuser_cv_signal(bio_cv)` (rumphyper_synch.c,
not in this repository) unparks the first waiter. -/
@[simps] def cvSignal (s : Sys) : Sys :=
  { s with bio := { s.bio with cvWaiters := s.bio.cvWaiters.tail },
           th := fun u => if s.bio.cvWaiters.head? = some u then (s.th u).wake else s.th u }

/-- `rumpuser_bio`: the unlocked test of `bio_inited`. -/
def bioInit (s : Sys) (a : BioArgs) : Sys :=
  if !s.bio.inited then s.setPc s.cur (.run (.bioLock a)) else s.setPc s.cur (.run (.bioSubmit a))

/-- `rumpuser_bio`: the second test of `bio_inited`, under `bio_mtx`. -/
def bioLock (s : Sys) (a : BioArgs) : Sys :=
  if !s.bio.inited then
    ({ s with bio := { s.bio with inited := true } } : Sys).setPc s.cur (.run (.bioSpawn a))
  else s.setPc s.cur (.run (.bioSubmit a))

/-- `rumpuser_bio`: `create_thread("biopoll", NULL, biothread, NULL, NULL)`. -/
def bioSpawn (s : Sys) (a : BioArgs) : Sys :=
  ((s.createThread 0 .pumpStart none).emit (.created s.nextTid .pumpStart false)).setPc s.cur
    (.run (.bioSubmit a))

/-- `rumpuser_bio`: the request record, its submission to the backend, and
the counters and `cv_signal` under `bio_mtx`. -/
def bioSubmit (s : Sys) (a : BioArgs) : Sys :=
  let num := a.fd - blkfdoff
  if num < 0 ∨ num ≥ nblkdev then s.halt .badIndex
  else match s.blk.devs num.toNat with
    | none => s.halt .nullDevice
    | some dev =>
      let r : Biocb := { id := s.bio.nextReq, num := num, done := a.done, arg := a.arg, dev := dev,
                         buf := a.data, nbytes := a.dlen, offset := a.off,
                         write := a.op &&& rumpuserBioRead = 0 }
      let s := ({ s with bio := { s.bio with reqs := s.bio.reqs ++ [r], nextReq := s.bio.nextReq + 1 } } : Sys).emit
        (.bioSubmit r)
      (({ s with bio := s.bio.count num.toNat } : Sys).cvSignal).back

/-- `biocomp(aiocb, ret)` for the request `r`: its `bio_done`, with the
status, then the counters under `bio_mtx`. -/
@[simps] def biocomp (s : Sys) (r : Biocb) (ret : Int) : Sys :=
  { s with log := s.log ++ [if ret ≠ 0 then .biodone r.done r.arg 0 eio else .biodone r.done r.arg r.nbytes 0],
           bio := ({ s.bio with reqs := s.bio.reqs.erase r } : Bio).uncount r.num.toNat }

/-- Modelled from the spec: `blkfront_aio_poll(dev)` (blkfront.c, not in this
repository) drains the completions of `dev`, calling each request's `aio_cb`
with its status, and returns their number. Which requests have completed,
and how, is the backend's answer `cs`; each call of `aio_cb` is logged as
`Event.biocomp` before it runs. -/
def aioPoll (s : Sys) (dev : Nat) : List (Nat × Int) → Sys × Nat
  | [] => (s, 0)
  | c :: cs =>
    match s.bio.reqs.find? (fun r => r.id == c.1 && r.dev == dev) with
    | some r =>
      let p := ((s.emit (.biocomp r c.2)).biocomp r c.2).aioPoll dev cs
      (p.1, p.2 + 1)
    | none => s.aioPoll dev cs

/-- The `for (i = 0; i < NBLKDEV; i++)` poll of `biothread`. -/
def pollSlots (cs : List (Nat × Int)) : List Nat → Sys → Nat → Sys × Nat
  | [], s, did => (s, did)
  | i :: is, s, did =>
    if s.bio.outstanding i ≠ 0 then
      match s.blk.devs i with
      | none => (s.halt .nullDevice, did)
      | some dev =>
        let p := s.aioPoll dev cs
        pollSlots cs is p.1 (did + p.2)
    else pollSlots cs is s did

/-- One turn of the poll loop of `biothread`. -/
def poll (s : Sys) (cs : List (Nat × Int)) : Sys :=
  let p := pollSlots cs (List.range nblkdev) s 0
  let s := p.1
  if s.halted.isSome then s
  else if p.2 ≠ 0 then (s.irqRestore s.cur).setPc s.cur (.run .pumpTop)
  else ((s.block s.cur).irqRestore s.cur).schedule .pumpResave

/-- The head of `biothread`'s outer loop: under `bio_mtx`, wait on `bio_cv`
while nothing is outstanding, then mask events for the poll loop. Modelled
from the spec: `rumpuser_cv_wait_nowrap` (rumphyper_synch.c, not in this
repository) releases `bio_mtx` and parks the thread on the condition
variable in one step. -/
def pumpWait (s : Sys) : Sys :=
  if s.bio.total = 0 then
    (({ s with bio := { s.bio with cvWaiters := s.bio.cvWaiters ++ [s.cur] } } : Sys).block s.cur).schedule
      .pumpCv
  else (s.irqSave s.cur).setPc s.cur (.run .pumpPoll)

/-! ## Steps -/

/-- The current thread, in its own code, calls an entry point. -/
def call (s : Sys) : Call → Option Sys
  | .createThread stack cookie joinable =>
    let t := s.nextTid
    let s := s.createThread cookie .user stack
    -- Modelled from the spec: `rumpuser_thread_create` (not in this
    -- repository) gives a joinable thread `THREAD_MUSTJOIN` before it can run.
    let s := if joinable then s.upd t (fun th => { th with flags := th.flags ||| threadMustjoin }) else s
    some ((s.emit (.created t .user joinable)).ret t)
  | .exitThread => some (s.irqSave s.cur).exitGate
  | .joinThread x => if x ∈ s.runq ∨ x ∈ s.exited then some (s.joinThread x) else none
  | .block => some (s.block s.cur).back
  | .wake t => if t ∈ s.runq ∨ t ∈ s.exited then some (s.wake t).back else none
  | .msleep ms => some (s.dosleep (s.now + millisecs ms.toNat) .msleep)
  | .absmsleep ms => some (s.dosleep (millisecs ms.toNat) .msleep)
  | .schedule => some (s.schedule .user)
  | .setSchedHook f => some ({ s with hook := f } : Sys).back
  | .initMainlwp c => some ((s.upd s.cur fun th => { th with cookie := c }).ret s.cur)
  | .clockSleep kind sec nsec => some (s.clockSleep kind sec nsec)
  | .open name mode => some (s.rumpuserOpen name mode)
  | .close fd => some (s.rumpuserClose fd)
  | .getfileinfo name => some (s.rumpuserGetfileinfo name)
  | .bio a => some (s.setPc s.cur (.run (.bioInit a)))

/-- The current thread goes on at `k`, where the code needs no answer from
the environment. -/
def cont (s : Sys) : Cont → Option Sys
  | .idle => some ((s.block s.cur).schedule .idle)
  | .exitGate => some (s.irqSave s.cur).exitGate
  | .exitDead => some ((s.emit (.printk "schedule() returned!  Trying again")).schedule .exitDead)
  | .joinLoop x => some ((({ s with joinwq := s.joinwq.erase (s.cur, x) } : Sys).irqSave s.cur).joinTest x)
  | .sleep c => some (s.sleepReturn c)
  | .absmono => some (s.ret 0)
  | .shutdownWait => some (s.ret 0)
  | .bioInit a => some (s.bioInit a)
  | .bioLock a => some (s.bioLock a)
  | .bioSpawn a => some (s.bioSpawn a)
  | .bioSubmit a => some (s.bioSubmit a)
  | .pumpStart => some s.pumpWait
  | .pumpTop => some s.pumpWait
  | .pumpCv => some (({ s with bio := { s.bio with cvWaiters := s.bio.cvWaiters.erase s.cur } } : Sys).pumpWait)
  | .pumpResave => some ((s.irqSave s.cur).setPc s.cur (.run .pumpPoll))
  | .user | .devopenInit _ _ | .pumpPoll => none

end Sys

/-- A step of the system. -/
inductive Act where
  | call (c : Call)
  | run
  | initDone (res : Option BlkInfo)
  | poll (cs : List (Nat × Int))
  | yield
  | pass
  | tick (d : Nat)
  | irq (t : Tid)
  deriving DecidableEq, Repr

/-- The system takes step `a`, if it can. -/
def step (s : Sys) (a : Act) : Option Sys :=
  if s.halted.isSome then none
  else match a with
    | .call c => if s.pc s.cur = .run .user then s.call c else none
    | .run => match s.pc s.cur with
      | .run k => s.cont k
      | _ => none
    | .initDone res => match s.pc s.cur with
      | .run (.devopenInit num c) => some (s.devopenDone num c res)
      | _ => none
    | .poll cs => if s.pc s.cur = .run .pumpPoll then some (s.poll cs) else none
    | .yield => match s.pc s.cur with
      | .run k => if k.yieldable then some (s.schedule k) else none
      | _ => none
    | .pass => match s.pc s.cur with
      | .sched _ => some s.pass
      | _ => none
    | .tick d => some { s with now := s.now + d }
    | .irq t =>
      if (!s.irqMasked || s.pc s.cur matches .sched _) && decide (t ∈ s.runq) then some (s.wake t)
      else none

/-- The system at the end of boot: `init_sched` created the idle thread, the
boot code created the main thread, and `run_idle_thread` switched to the idle
thread, events unmasked. -/
def init : Sys where
  th t := if t = 0 then { Thread.none with flags := runnableFlag }
    else if t = 1 then { Thread.none with flags := runnableFlag, stack := 1 }
    else Thread.none
  ctx t := if t = 0 then { Ctx.start .idle with pc := .run .idle } else Ctx.start .user
  nextTid := 2
  cur := 0
  runq := [0, 1]
  exited := []
  joinwq := []
  irqMasked := false
  schedFlags := false
  now := 0
  hook := none
  nextPage := 2
  blk := Blk.init
  bio := Bio.init
  halted := none
  log := []

/-- The states the system reaches from boot. -/
inductive Reachable : Sys → Prop where
  | init : Reachable init
  | step {s s' : Sys} (a : Act) : Reachable s → step s a = some s' → Reachable s'

/-- Run the steps of a list in order. -/
def run : Sys → List Act → Option Sys
  | s, [] => some s
  | s, a :: as => (step s a).bind (run · as)

/-! ## One lemma per action -/

section
variable {s s' : Sys}

theorem step_call {c : Call} (h : step s (.call c) = some s') :
    s.halted = none ∧ s.pc s.cur = .run .user ∧ s.call c = some s' := by
  simp only [step] at h
  split at h
  · cases h
  · rename_i hh
    split at h
    · exact ⟨by simpa using hh, ‹_›, h⟩
    · cases h

theorem step_run (h : step s .run = some s') :
    s.halted = none ∧ ∃ k, s.pc s.cur = .run k ∧ s.cont k = some s' := by
  simp only [step] at h
  split at h
  · cases h
  · rename_i hh
    split at h
    · exact ⟨by simpa using hh, _, ‹_›, h⟩
    · cases h

theorem step_initDone {res : Option BlkInfo} (h : step s (.initDone res) = some s') :
    s.halted = none ∧ ∃ num c, s.pc s.cur = .run (.devopenInit num c) ∧
      s' = s.devopenDone num c res := by
  simp only [step] at h
  split at h
  · cases h
  · rename_i hh
    split at h
    · cases h; exact ⟨by simpa using hh, _, _, ‹_›, rfl⟩
    · cases h

theorem step_poll {cs : List (Nat × Int)} (h : step s (.poll cs) = some s') :
    s.halted = none ∧ s.pc s.cur = .run .pumpPoll ∧ s' = s.poll cs := by
  simp only [step] at h
  split at h
  · cases h
  · rename_i hh
    split at h
    · cases h; exact ⟨by simpa using hh, ‹_›, rfl⟩
    · cases h

theorem step_yield (h : step s .yield = some s') :
    s.halted = none ∧ ∃ k, s.pc s.cur = .run k ∧ k.yieldable = true ∧ s' = s.schedule k := by
  simp only [step] at h
  split at h
  · cases h
  · rename_i hh
    split at h
    · split at h
      · cases h; exact ⟨by simpa using hh, _, ‹_›, ‹_›, rfl⟩
      · cases h
    · cases h

theorem step_pass (h : step s .pass = some s') :
    s.halted = none ∧ ∃ k, s.pc s.cur = .sched k ∧ s' = s.pass := by
  simp only [step] at h
  split at h
  · cases h
  · rename_i hh
    split at h
    · cases h; exact ⟨by simpa using hh, _, ‹_›, rfl⟩
    · cases h

theorem step_tick {d : Nat} (h : step s (.tick d) = some s') :
    s.halted = none ∧ s' = { s with now := s.now + d } := by
  simp only [step] at h
  split at h
  · cases h
  · rename_i hh
    cases h; exact ⟨by simpa using hh, rfl⟩

theorem step_irq {t : Tid} (h : step s (.irq t) = some s') :
    s.halted = none ∧ (s.irqMasked = false ∨ ∃ k, s.pc s.cur = .sched k) ∧ t ∈ s.runq ∧
      s' = s.wake t := by
  simp only [step] at h
  split at h
  · cases h
  · rename_i hh
    split at h
    · rename_i hc
      cases h
      simp only [Bool.and_eq_true, Bool.or_eq_true, Bool.not_eq_true', decide_eq_true_eq] at hc
      refine ⟨by simpa using hh, ?_, hc.2, rfl⟩
      rcases hc.1 with hm | hm
      · exact .inl hm
      · right; split at hm <;> simp_all
    · cases h

end

/-! ## A pass of the selection loop -/

namespace Sys

/-- `schedule()` once its loop selected `n`: the descriptors as the scan left
them, `n` at the tail of the run list, the caller's mask restored, and the
switch to `n`. -/
@[simps] def handoff (s : Sys) (n : Tid) : Sys :=
  let th := (scan s.now s.runq s.th (s.now + seconds 10)).1
  { s with th := th, runq := s.runq.erase n ++ [n], irqMasked := s.schedFlags, cur := n,
           log := s.log ++ if s.cur = n ∨ s.hook.isNone then [] else [.hook (th s.cur).cookie (th n).cookie] }

theorem pass_none {s : Sys} (h : s.selected = none) :
    s.pass = s.emit (.blockDomain (scan s.now s.runq s.th (s.now + seconds 10)).2.2) := by
  simp only [selected] at h
  simp only [pass, h]

theorem pass_some {s : Sys} {n : Tid} (h : s.selected = some n) : s.pass = (s.handoff n).resume n := by
  simp only [selected] at h
  simp only [pass, h]
  congr 1
  split
  · next hc => subst hc; simp [handoff]
  · next hc => cases hh : s.hook <;> simp [switchThreads, handoff, hc, hh]

end Sys

/-! ## The poll loop -/

namespace Sys

/-- `blkfront_aio_poll` touches only the requests and the counters, and the
log, to which it adds completions. -/
theorem aioPoll_frame (dev : Nat) : ∀ (cs : List (Nat × Int)) (s : Sys),
    ∃ b l, (s.aioPoll dev cs).1 = { s with bio := b, log := s.log ++ l } ∧ (∀ e ∈ l, e.isBio) ∧
      b.inited = s.bio.inited ∧ b.cvWaiters = s.bio.cvWaiters
  | [], s => ⟨s.bio, [], by simp [aioPoll], by simp, rfl, rfl⟩
  | c :: cs, s => by
    simp only [aioPoll]
    split
    · rename_i r _
      obtain ⟨b, l, h, hl, hi, hw⟩ := aioPoll_frame dev cs ((s.emit (.biocomp r c.2)).biocomp r c.2)
      refine ⟨b, ((s.emit (.biocomp r c.2)).biocomp r c.2).log.drop s.log.length ++ l,
        by rw [h]; simp [biocomp, emit], fun e he => (List.mem_append.1 he).elim ?_ (hl e), hi, hw⟩
      intro he
      simp only [biocomp_log, emit_log, List.append_assoc, List.drop_left, List.singleton_append,
        List.mem_cons, List.not_mem_nil, or_false] at he
      rcases he with rfl | rfl
      · rfl
      · split <;> rfl
    · exact aioPoll_frame dev cs s

/-- The poll of every slot touches only the requests, the counters, the log,
to which it adds completions, and `halted`. -/
theorem pollSlots_frame (cs : List (Nat × Int)) : ∀ (is : List Nat) (s : Sys) (did : Nat),
    ∃ b l h, (pollSlots cs is s did).1 = { s with bio := b, log := s.log ++ l, halted := h } ∧
      (∀ e ∈ l, e.isBio) ∧ (h = s.halted ∨ h = some .nullDevice) ∧
      b.inited = s.bio.inited ∧ b.cvWaiters = s.bio.cvWaiters
  | [], s, did => ⟨s.bio, [], s.halted, by simp [pollSlots], by simp, .inl rfl, rfl, rfl⟩
  | i :: is, s, did => by
    simp only [pollSlots]
    split
    · split
      · exact ⟨s.bio, [], some .nullDevice, by simp [halt], by simp, .inr rfl, rfl, rfl⟩
      · obtain ⟨b, l, hs, hl, hi, hw⟩ := aioPoll_frame _ cs s
        obtain ⟨b', l', h', hs', hl', hh', hi', hw'⟩ := pollSlots_frame cs is (s.aioPoll _ cs).1 (did + _)
        rw [hs] at hh' hi' hw'
        exact ⟨b', l ++ l', h', by rw [hs', hs]; simp,
          fun e he => (List.mem_append.1 he).elim (hl e) (hl' e), hh', hi'.trans hi, hw'.trans hw⟩
    · exact pollSlots_frame cs is s did

end Sys

theorem run_cons_eq_some {s s2 : Sys} {a : Act} {as : List Act} :
    run s (a :: as) = some s2 ↔ ∃ s1, step s a = some s1 ∧ run s1 as = some s2 := by
  cases h : step s a <;> simp [run, h]

theorem reachable_run : ∀ {s s' : Sys} {l : List Act}, Reachable s → run s l = some s' → Reachable s'
  | s, s', [], hs, h => by simp only [run, Option.some.injEq] at h; exact h ▸ hs
  | s, s', a :: as, hs, h => by
    simp only [run] at h
    cases ha : step s a with
    | none => simp [ha] at h
    | some s1 => rw [ha] at h; exact reachable_run (.step a hs ha) h

/-- A run of the steps `l` from boot that ends in a state where `p` holds. -/
theorem reach_of_run {l : List Act} {p : Sys → Bool} (h : (run init l).map p = some true) :
    ∃ s, Reachable s ∧ p s = true := by
  cases hr : run init l with
  | none => simp [hr] at h
  | some s =>
    simp only [hr, Option.map_some', Option.some.injEq] at h
    exact ⟨s, reachable_run .init hr, h⟩

/-- The state at the end of a run from boot, or boot if the run stops. -/
theorem reachable_getD (l : List Act) : Reachable ((run init l).getD init) := by
  cases h : run init l with
  | none => exact .init
  | some s => exact reachable_run .init h

theorem eq_some_getD {o : Option Sys} (h : o.isSome = true) : o = some (o.getD init) := by
  cases o <;> simp_all

end RumpuserXen
