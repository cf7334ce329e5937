import RumpuserXen.Frame

/-
  Device handles

  `init_blkfront` gives a handle for slot `n`, `devopen` stores it in
  `blkdevs[n]`, and the `rumpuser_close` that drops `blkopen[n]` to zero
  clears the slot and hands the handle to `shutdown_blkfront`. Nothing locks
  `devopen`: two opens of a closed slot can both wait in `init_blkfront`, and
  the second handle then overwrites the first, which is never shut down. The
  handles that are shut down, though, are each shut down once.

  What is proved:
    1. `HandleOk`, over the slots and the log: a handle in `blkdevs` was
       given by `init_blkfront`, sits in one slot only and has not been shut
       down, and the handles shut down so far are distinct and were given by
       `init_blkfront`; one lemma per update of the slots (`HandleOk.bump`,
       `HandleOk.devopenEnd`, `HandleOk.close`, `HandleOk.getfileinfoTail`);
    2. `BlkQuiet`: every other stretch of code leaves the slots, and these
       two calls of the backend, alone;
    3. `handles_shut_once` — in every reachable state, whatever the
       interleaving of opens, closes and `rumpuser_getfileinfo` calls waiting
       on the backend, no handle has been shut down twice, each one shut down
       was given by `init_blkfront`, and no slot holds one shut down.
-/

namespace RumpuserXen

/-- The handle a call of `shutdown_blkfront` is given, unless it is NULL. -/
def Event.shutdownHandle : Event → Option Nat
  | .shutdownBlkfront (some h) => some h
  | _ => none

/-- The handle an answer of `init_blkfront` gave, unless it is NULL. -/
def Event.initHandle : Event → Option Nat
  | .initDone _ (some h) => some h
  | _ => none

/-- The handles shut down in a log, in order. -/
def shutdowns (l : List Event) : List Nat := l.filterMap Event.shutdownHandle

/-- The handles `init_blkfront` gave in a log, in order. -/
def inits (l : List Event) : List Nat := l.filterMap Event.initHandle

@[simp] theorem shutdowns_append (l m : List Event) : shutdowns (l ++ m) = shutdowns l ++ shutdowns m := by
  simp [shutdowns]

@[simp] theorem inits_append (l m : List Event) : inits (l ++ m) = inits l ++ inits m := by
  simp [inits]

/-- What the end of `rumpuser_close` adds to the log: the `shutdown_blkfront`
of the last reference, if it went. -/
def closeLog : Option (Option Nat) → List Event
  | none => []
  | some dev => [.shutdownBlkfront dev]

@[simp] theorem shutdowns_closeLog_none : shutdowns (closeLog none) = [] := rfl
@[simp] theorem inits_closeLog (sh : Option (Option Nat)) : inits (closeLog sh) = [] := by
  cases sh <;> rfl

/-- The slots `b` and the log `l` agree: each handle in a slot came from
`init_blkfront`, no two slots hold one handle, and no slot holds a handle
shut down; each handle shut down came from `init_blkfront`, once. -/
structure HandleOk (b : Blk) (l : List Event) : Prop where
  fresh : ∀ h ∈ inits l, h < b.nextDev
  given : ∀ n h, b.devs n = some h → h ∈ inits l
  inj : ∀ n m h, b.devs n = some h → b.devs m = some h → n = m
  live : ∀ n h, b.devs n = some h → h ∉ shutdowns l
  once : (shutdowns l).Nodup
  shut : ∀ h ∈ shutdowns l, h ∈ inits l

section
variable {b : Blk} {l l' : List Event}

theorem HandleOk.congr (hb : HandleOk b l) (hs : shutdowns l' = shutdowns l) (hi : inits l' = inits l) :
    HandleOk b l' := by
  obtain ⟨h1, h2, h3, h4, h5, h6⟩ := hb
  exact ⟨hi ▸ h1, hi ▸ h2, h3, hs ▸ h4, hs ▸ h5, hs ▸ hi ▸ h6⟩

theorem handleOk_init : HandleOk Blk.init [] :=
  ⟨by simp [inits], by simp [Blk.init], by simp [Blk.init], by simp [Blk.init], by simp [shutdowns],
    by simp [shutdowns]⟩

/-! ## The updates of the slots -/

theorem update_none_eq_some {f : Nat → Option Nat} {num n h : Nat} (hn : Function.update f num none n = some h) :
    n ≠ num ∧ f n = some h := by
  by_cases e : n = num
  · subst e; simp at hn
  · rw [Function.update_noteq e] at hn; exact ⟨e, hn⟩

/-- The reference bump of an open slot touches the counts only. -/
theorem HandleOk.bump (hb : HandleOk b l) {num : Nat} {r : Blk × Int} (h : b.devopenBegin num = some r) :
    HandleOk r.1 l := by
  unfold Blk.devopenBegin at h
  split at h
  · cases h; exact ⟨hb.fresh, hb.given, hb.inj, hb.live, hb.once, hb.shut⟩
  · cases h

/-- The counts are free to change. -/
theorem HandleOk.opens (hb : HandleOk b l) (o : Nat → Int) : HandleOk { b with opens := o } l :=
  ⟨hb.fresh, hb.given, hb.inj, hb.live, hb.once, hb.shut⟩

/-- A slot may be cleared. -/
theorem HandleOk.clear (hb : HandleOk b l) (num : Nat) (o : Nat → Int) :
    HandleOk { b with devs := Function.update b.devs num none, opens := o } l :=
  ⟨hb.fresh, fun n h hn => hb.given n h (update_none_eq_some hn).2,
    fun n m h hn hm => hb.inj n m h (update_none_eq_some hn).2 (update_none_eq_some hm).2,
    fun n h hn => hb.live n h (update_none_eq_some hn).2, hb.once, hb.shut⟩

/-- A slot may take the next handle of the backend, once `init_blkfront` gave it. -/
theorem HandleOk.store (hb : HandleOk b l) (num d : Nat) (i : Nat → BlkInfo) (o : Nat → Int) :
    HandleOk { devs := Function.update b.devs num (some b.nextDev), infos := i, opens := o,
               nextDev := b.nextDev + 1 } (l ++ [.initDone d (some b.nextDev)]) := by
  have hnew : b.nextDev ∉ inits l := fun h => lt_irrefl _ (hb.fresh _ h)
  have hin : inits (l ++ [.initDone d (some b.nextDev)]) = inits l ++ [b.nextDev] := by
    simp [inits, Event.initHandle]
  have hsd : shutdowns (l ++ [.initDone d (some b.nextDev)]) = shutdowns l := by
    simp [shutdowns, Event.shutdownHandle]
  have hdevs : ∀ n h, Function.update b.devs num (some b.nextDev) n = some h →
      n = num ∧ h = b.nextDev ∨ n ≠ num ∧ b.devs n = some h := fun n h hn => by
    by_cases e : n = num
    · subst e; simp at hn; exact .inl ⟨rfl, hn.symm⟩
    · rw [Function.update_noteq e] at hn; exact .inr ⟨e, hn⟩
  refine ⟨fun h hh => ?_, fun n h hn => ?_, fun n m h hn hm => ?_, fun n h hn => ?_, hsd ▸ hb.once,
    fun h hh => ?_⟩ <;> simp only [hin, hsd, List.mem_append, List.mem_singleton] at *
  · rcases hh with hh | rfl
    · exact Nat.lt_succ_of_lt (hb.fresh h hh)
    · exact Nat.lt_succ_self _
  · rcases hdevs n h hn with ⟨-, rfl⟩ | ⟨-, hn⟩
    · exact .inr rfl
    · exact .inl (hb.given n h hn)
  · rcases hdevs n h hn with ⟨hn1, hn2⟩ | ⟨-, hn⟩ <;> rcases hdevs m h hm with ⟨hm1, hm2⟩ | ⟨-, hm⟩
    · exact hn1.trans hm1.symm
    · exact absurd (hn2 ▸ hb.given m h hm) hnew
    · exact absurd (hm2 ▸ hb.given n h hn) hnew
    · exact hb.inj n m h hn hm
  · rcases hdevs n h hn with ⟨-, rfl⟩ | ⟨-, hn⟩
    · exact fun hs => hnew (hb.shut _ hs)
    · exact hb.live n h hn
  · exact .inl (hb.shut h hh)

/-- The handle of a slot may be shut down as the slot is cleared: it is the
first time. -/
theorem HandleOk.shutdown (hb : HandleOk b l) {num hh : Nat} (hd : b.devs num = some hh) (o : Nat → Int) :
    HandleOk { b with devs := Function.update b.devs num none, opens := o }
      (l ++ [.shutdownBlkfront (some hh)]) := by
  have hsd : shutdowns (l ++ [.shutdownBlkfront (some hh)]) = shutdowns l ++ [hh] := by
    simp [shutdowns, Event.shutdownHandle]
  have hin : inits (l ++ [.shutdownBlkfront (some hh)]) = inits l := by
    simp [inits, Event.initHandle]
  have hc := hb.clear num o
  refine ⟨hin ▸ hc.fresh, hin ▸ hc.given, hc.inj, fun n h hn => ?_, ?_, fun h hs => ?_⟩ <;>
    simp only [hsd, hin, List.mem_append, List.mem_singleton, not_or] at *
  · obtain ⟨hne, hn⟩ := update_none_eq_some hn
    exact ⟨hb.live n h hn, fun e => hne (hb.inj n num h hn (e ▸ hd))⟩
  · exact List.nodup_append.2 ⟨hb.once, List.nodup_singleton _, by simpa using fun hs => hb.live _ _ hd hs⟩
  · rcases hs with hs | rfl
    · exact hb.shut h hs
    · exact hb.given _ _ hd

/-- `devopen` after `init_blkfront`, with the answer logged. -/
theorem HandleOk.devopenEnd (hb : HandleOk b l) (num d : Nat) (res : Option BlkInfo) :
    HandleOk (b.devopenEnd num res).1 (l ++ [.initDone d ((b.devopenEnd num res).1.devs num)]) := by
  cases res with
  | none =>
    refine (hb.clear num b.opens).congr ?_ ?_ <;> simp [Blk.devopenEnd, shutdowns, inits, Event.shutdownHandle,
      Event.initHandle]
  | some info =>
    simpa [Blk.devopenEnd] using hb.store num d _ _

/-- `rumpuser_close`, with its `shutdown_blkfront` logged. -/
theorem HandleOk.close (hb : HandleOk b l) (fd : Int) :
    HandleOk (b.rumpuserClose fd).1 (l ++ closeLog (b.rumpuserClose fd).2.2) := by
  unfold Blk.rumpuserClose
  dsimp only
  split_ifs with hf h0
  · simpa [closeLog] using hb
  · cases hd : b.devs (fd - blkfdoff).toNat with
    | none =>
      simp only [closeLog, hd]
      exact (hb.clear _ _).congr (by simp [shutdowns, Event.shutdownHandle]) (by simp [inits, Event.initHandle])
    | some hh => simpa [closeLog, hd] using hb.shutdown hd _
  · simpa [closeLog] using hb.opens _

/-- The rest of `rumpuser_getfileinfo`: its `rumpuser_close`. -/
theorem HandleOk.getfileinfoTail (hb : HandleOk b l) (num : Nat) (rv : Int) :
    HandleOk (b.getfileinfoTail num rv).1 (l ++ closeLog (b.getfileinfoTail num rv).2.2.2) := by
  unfold Blk.getfileinfoTail
  split
  · simpa [closeLog] using hb
  · exact hb.close _

theorem shutdowns_inits_of_isSched (h : ∀ e ∈ l, e.isSched) : shutdowns l = [] ∧ inits l = [] := by
  refine ⟨List.filterMap_eq_nil_iff.2 fun e he => ?_, List.filterMap_eq_nil_iff.2 fun e he => ?_⟩ <;>
  · have := h e he
    unfold Event.isSched at this
    split at this <;> first | rfl | cases this

end

namespace Sys

section
variable {s s' : Sys}

/-! ## Code that leaves the slots alone -/

/-- A stretch of code that leaves the slots alone, and calls neither
`init_blkfront` to an answer nor `shutdown_blkfront`. -/
structure BlkQuiet (s s' : Sys) : Prop where
  blk : s'.blk = s.blk
  log_shut : shutdowns s'.log = shutdowns s.log
  log_init : inits s'.log = inits s.log

theorem handleOk_quiet (hb : HandleOk s.blk s.log) (hq : BlkQuiet s s') : HandleOk s'.blk s'.log :=
  hq.blk ▸ hb.congr hq.log_shut hq.log_init

/-- Code that writes no slot and logs neither an answer of `init_blkfront` nor a
`shutdown_blkfront` leaves the slots alone. -/
theorem Footprint.blkQuiet {w : Writes} (hf : Footprint w s s') (hb : w.blk = false)
    (hs : .shutdownBlkfront ∉ w.emits) (hi : .initDone ∉ w.emits) : BlkQuiet s s' :=
  ⟨hf.blk hb, hf.filterMap_log fun e he => by cases e <;> first | exact hs | simp [Event.shutdownHandle] at he,
    hf.filterMap_log fun e he => by cases e <;> first | exact hi | simp [Event.initHandle] at he⟩

theorem blkQuiet_pass (s : Sys) : BlkQuiet s s.pass := by
  obtain ⟨l, hl, hs⟩ := pass_log s
  obtain ⟨h1, h2⟩ := shutdowns_inits_of_isSched hs
  refine ⟨?_, by simp [hl, h1], by simp [hl, h2]⟩
  cases hsel : s.selected with
  | none => rw [pass_none hsel]; rfl
  | some n => obtain ⟨e, l, h, -⟩ := pass_some_eq hsel; rw [h]; rfl

/-! ## The device entry points -/

theorem closeEnd_blk (rv : Int) (out : List Int) (sh : Option (Option Nat)) :
    (s.closeEnd rv out sh).blk = s.blk ∧ (s.closeEnd rv out sh).log = s.log ++ closeLog sh := by
  cases sh <;> simp [closeEnd, closeLog]

theorem handleOk_devopenReturn (hb : HandleOk s.blk s.log) (num : Nat) (c : DevCaller) (rv : Int) :
    HandleOk (s.devopenReturn num c rv).blk (s.devopenReturn num c rv).log := by
  cases c with
  | «open» mode => exact hb
  | getfileinfo =>
    obtain ⟨h1, h2⟩ := closeEnd_blk (s := { s with blk := (s.blk.getfileinfoTail num rv).1 })
      (s.blk.getfileinfoTail num rv).2.1 (s.blk.getfileinfoTail num rv).2.2.1
      (s.blk.getfileinfoTail num rv).2.2.2
    simp only [devopenReturn, h1, h2]
    exact hb.getfileinfoTail num rv

theorem handleOk_devopen (hb : HandleOk s.blk s.log) (num : Nat) (c : DevCaller) :
    HandleOk (s.devopen num c).blk (s.devopen num c).log := by
  unfold devopen
  split
  · next r hr => exact handleOk_devopenReturn (s := { s with blk := r.1 }) (hb.bump hr) num c r.2
  · exact hb.congr (by simp [shutdowns, Event.shutdownHandle]) (by simp [inits, Event.initHandle])

theorem handleOk_devopenDone (hb : HandleOk s.blk s.log) (num : Nat) (c : DevCaller) (res : Option BlkInfo) :
    HandleOk (s.devopenDone num c res).blk (s.devopenDone num c res).log :=
  handleOk_devopenReturn (hb.devopenEnd num (devnum num) res) num c _

/-- **Every step keeps the slots and the log in agreement.** -/
theorem handleOk_step (hb : HandleOk s.blk s.log) {a : Act} (h : step s a = some s') :
    HandleOk s'.blk s'.log := by
  cases a with
  | call c =>
    have hpc := (step_call h).2.1
    replace h := (step_call h).2.2
    cases c
    case «open» name mode =>
      simp only [call, Option.some.injEq] at h
      subst h
      unfold rumpuserOpen
      split
      · exact hb
      · exact handleOk_devopen hb _ _
    case close fd =>
      simp only [call, Option.some.injEq] at h
      subst h
      obtain ⟨h1, h2⟩ := closeEnd_blk (s := { s with blk := (s.blk.rumpuserClose fd).1 })
        (s.blk.rumpuserClose fd).2.1 [] (s.blk.rumpuserClose fd).2.2
      simp only [rumpuserClose, h1, h2]
      exact hb.close fd
    case getfileinfo name =>
      simp only [call, Option.some.injEq] at h
      subst h
      unfold rumpuserGetfileinfo
      split
      · exact hb
      · exact handleOk_devopen hb _ _
    all_goals exact handleOk_quiet hb ((footprint_call hpc h).blkQuiet rfl (by simp) (by simp))
  | run =>
    obtain ⟨-, k, hpc, h⟩ := step_run h
    exact handleOk_quiet hb ((footprint_cont hpc h).blkQuiet (by cases k <;> rfl) (by cases k <;> simp)
      (by cases k <;> simp))
  | initDone res => obtain ⟨-, num, c, -, rfl⟩ := step_initDone h; exact handleOk_devopenDone hb num c res
  | poll cs =>
    obtain ⟨-, hpc, rfl⟩ := step_poll h; exact handleOk_quiet hb ((footprint_poll hpc cs).blkQuiet rfl (by decide) (by decide))
  | yield => obtain ⟨-, k, -, -, rfl⟩ := step_yield h; exact hb
  | pass => obtain ⟨-, -, -, rfl⟩ := step_pass h; exact handleOk_quiet hb (blkQuiet_pass s)
  | tick d => obtain ⟨-, rfl⟩ := step_tick h; exact hb
  | irq t => obtain ⟨-, -, -, rfl⟩ := step_irq h; exact hb

theorem handleOk_of_reachable (h : Reachable s) : HandleOk s.blk s.log := by
  induction h with
  | init => exact handleOk_init
  | step a _ hs ih => exact handleOk_step ih hs

/-- **No device handle is shut down twice.** In every reachable state, under
every interleaving of `rumpuser_open`, `rumpuser_close` and
`rumpuser_getfileinfo` calls waiting on the backend: the handles passed to
`shutdown_blkfront` are distinct, each was given by `init_blkfront`, and
none of them is still held by a slot of `blkdevs`. -/
theorem handles_shut_once (h : Reachable s) :
    (shutdowns s.log).Nodup ∧ (∀ d ∈ shutdowns s.log, d ∈ inits s.log) ∧
      ∀ n d, s.blk.devs n = some d → d ∉ shutdowns s.log := by
  have hb := handleOk_of_reachable h
  exact ⟨hb.once, hb.shut, hb.live⟩

/-- From boot, the main thread opens `blk0`, the backend answers with a
device, and the thread closes the descriptor 64: the handle 0 is shut down. -/
theorem handles_shut_once_boot :
    shutdowns ((run init [.run, .pass, .call (.open [98, 108, 107, 48] 16), .irq 1, .pass,
      .initDone (some ⟨8, 512, 2⟩), .call (.close 64)]).getD init).log = [0] ∧
    (shutdowns ((run init [.run, .pass, .call (.open [98, 108, 107, 48] 16), .irq 1, .pass,
      .initDone (some ⟨8, 512, 2⟩), .call (.close 64)]).getD init).log).Nodup ∧
    (∀ d ∈ shutdowns ((run init [.run, .pass, .call (.open [98, 108, 107, 48] 16), .irq 1, .pass,
      .initDone (some ⟨8, 512, 2⟩), .call (.close 64)]).getD init).log,
        d ∈ inits ((run init [.run, .pass, .call (.open [98, 108, 107, 48] 16), .irq 1, .pass,
          .initDone (some ⟨8, 512, 2⟩), .call (.close 64)]).getD init).log) ∧
    ∀ n d, ((run init [.run, .pass, .call (.open [98, 108, 107, 48] 16), .irq 1, .pass,
      .initDone (some ⟨8, 512, 2⟩), .call (.close 64)]).getD init).blk.devs n = some d →
        d ∉ shutdowns ((run init [.run, .pass, .call (.open [98, 108, 107, 48] 16), .irq 1, .pass,
          .initDone (some ⟨8, 512, 2⟩), .call (.close 64)]).getD init).log :=
  ⟨by decide, handles_shut_once (reachable_getD _)⟩

end

end Sys
end RumpuserXen
