import RumpuserXen.Frame
import RumpuserXen.Lists

/-
  Block I/O requests

  `rumpuser_bio` makes a `biocb`, hands it to the backend and counts it in
  `bio_outstanding_total` and in its slot's `blkdev_outstanding`, in one
  stretch of code; `biocomp`, which the poll of `biothread` calls for each
  request the backend completed, calls the request's `biodone` and uncounts
  it. No other code touches the records or the counters.

  What is proved:
    1. `ReqInv` over the globals and the log, with one lemma per update:
       `ReqInv.submit` (`rumpuser_bio`), `ReqInv.biocomp`, and
       `ReqInv.append` and `ReqInv.congr` for code that adds no request
       event and leaves the counters alone;
    2. `Plain`: what a stretch of code outside `rumpuser_bio`'s locked part
       and `biothread` leaves of the block I/O state (`plain_call`,
       `plain_cont`, `plain_devopenDone`); the pump's invariants use it too;
    3. `reqInv_of_reachable`, and `bio_counters`: the total is the sum of the
       slot counters, a slot counter is the number of requests on the slot
       submitted and not completed, every completion is followed at once by
       its own `biodone` and happens once, and when every submitted request
       has completed the counters are back to zero.
-/

namespace RumpuserXen

/-- The events of the request records: a submission, a completion and its
`biodone`. -/
def Event.isReq : Event → Bool
  | .bioSubmit _ | .biocomp _ _ | .biodone _ _ _ _ => true
  | _ => false

/-- The completion of request `r`, whatever its status. -/
def Event.completes (r : Biocb) : Event → Bool
  | .biocomp r' _ => r' = r
  | _ => false

theorem Event.completes_iff {r : Biocb} {e : Event} : e.completes r = true ↔ ∃ ret, e = .biocomp r ret := by
  cases e <;> simp [completes, eq_comm]

theorem Event.kind_of_isReq {e : Event} (h : e.isReq = true) :
    e.kind = .bioSubmit ∨ e.kind = .biocomp ∨ e.kind = .biodone := by
  cases e <;> simp_all [Event.isReq]

theorem Event.isReq_of_isSched {e : Event} (h : e.isSched = true) : e.isReq = false := by
  cases e <;> simp_all [isSched, isReq]

/-- Every completion in `l` is followed at once by its request's `biodone`:
`(arg, nbytes, 0)` on success, `(arg, 0, EIO)` on failure. -/
def DoneAfter (l : List Event) : Prop :=
  ∀ i r ret, l[i]? = some (.biocomp r ret) →
    l[i + 1]? = some (if ret ≠ 0 then .biodone r.done r.arg 0 eio else .biodone r.done r.arg r.nbytes 0)

namespace DoneAfter

theorem append {l m : List Event} (hl : DoneAfter l) (hm : DoneAfter m) : DoneAfter (l ++ m) := by
  intro i r ret h
  by_cases hi : i < l.length
  · rw [List.getElem?_append_left hi] at h
    have h' := hl i r ret h
    rw [List.getElem?_append_left (List.getElem?_eq_some_iff.1 h').1]
    exact h'
  · rw [List.getElem?_append_right (by omega)] at h
    rw [List.getElem?_append_right (by omega), show i + 1 - l.length = i - l.length + 1 by omega]
    exact hm _ r ret h

theorem of_no_biocomp {m : List Event} (hm : ∀ r ret, .biocomp r ret ∉ m) : DoneAfter m :=
  fun _ r ret h => absurd (List.getElem?_mem h) (hm r ret)

/-- A call of `aio_cb`, as `blkfront_aio_poll` makes it, and the `biodone`
that `biocomp` then calls. -/
theorem pair (r : Biocb) (ret : Int) : DoneAfter [.biocomp r ret,
    if ret ≠ 0 then .biodone r.done r.arg 0 eio else .biodone r.done r.arg r.nbytes 0] := by
  rintro (_ | _ | i) r' ret' h
  · simp only [List.getElem?_cons_zero, Option.some.injEq, Event.biocomp.injEq] at h
    obtain ⟨rfl, rfl⟩ := h
    rfl
  · simp only [List.getElem?_cons_succ, List.getElem?_cons_zero, Option.some.injEq] at h
    split at h <;> cases h
  · simp at h

end DoneAfter

/-- The request records, the counters and the log between two steps, when
`bio_mtx` is free. -/
structure ReqInv (b : Bio) (l : List Event) : Prop where
  total : b.total = b.sum
  /-- A slot counter counts the records on its slot. -/
  slot : ∀ n, b.outstanding n = ↑(b.reqs.countP fun r => r.num.toNat == n)
  num : ∀ r ∈ b.reqs, 0 ≤ r.num ∧ r.num < nblkdev
  /-- The records held are the requests submitted and not completed. -/
  pending : ∀ r, r ∈ b.reqs ↔ .bioSubmit r ∈ l ∧ ∀ ret, .biocomp r ret ∉ l
  submitted : ∀ r ret, .biocomp r ret ∈ l → .bioSubmit r ∈ l
  fresh : ∀ r, .bioSubmit r ∈ l → r.id < b.nextReq
  nodup : b.reqs.Nodup
  done : DoneAfter l
  once : ∀ r, l.countP (Event.completes r) ≤ 1

namespace ReqInv

variable {b : Bio} {l : List Event}

/-- Code that adds no request event to the log. -/
theorem append (hi : ReqInv b l) {m : List Event} (hm : ∀ e ∈ m, e.isReq = false) :
    ReqInv b (l ++ m) :=
  have hs : ∀ r, .bioSubmit r ∉ m := fun r h => by simpa [Event.isReq] using hm _ h
  have hc : ∀ r ret, .biocomp r ret ∉ m := fun r ret h => by simpa [Event.isReq] using hm _ h
  { hi with
    pending := fun r => by simp [hi.pending, hs, hc]
    submitted := fun r ret h => by simpa [hs, hc] using hi.submitted r ret (by simpa [hc] using h)
    fresh := fun r h => hi.fresh r (by simpa [hs] using h)
    done := hi.done.append (.of_no_biocomp hc)
    once := fun r => by
      have h0 : m.countP (Event.completes r) = 0 := List.countP_eq_zero.2 fun e he hr => by
        obtain ⟨ret, rfl⟩ := Event.completes_iff.1 hr; exact hc r ret he
      rw [List.countP_append, h0]
      exact hi.once r }

/-- Code that leaves the counters, the records and the next record alone. -/
theorem congr {b' : Bio} (ht : b'.total = b.total) (ho : b'.outstanding = b.outstanding)
    (hr : b'.reqs = b.reqs) (hn : b'.nextReq = b.nextReq) (hi : ReqInv b l) : ReqInv b' l := by
  obtain ⟨i, t, o, r, n, w⟩ := b
  obtain ⟨i', t', o', r', n', w'⟩ := b'
  simp only at ht ho hr hn
  subst ht ho hr hn
  exact ⟨hi.total, hi.slot, hi.num, hi.pending, hi.submitted, hi.fresh, hi.nodup, hi.done, hi.once⟩

theorem num_lt (hi : ReqInv b l) {r : Biocb} (hr : r ∈ b.reqs) : r.num.toNat < nblkdev := by
  have := hi.num r hr; simp only [nblkdev] at this ⊢; omega

/-- **`rumpuser_bio`** submits a new record `r` and counts it on its slot. -/
theorem submit (hi : ReqInv b l) {r : Biocb} (hid : r.id = b.nextReq) (hn : 0 ≤ r.num ∧ r.num < nblkdev) :
    ReqInv (({ b with reqs := b.reqs ++ [r], nextReq := b.nextReq + 1 } : Bio).count r.num.toNat)
      (l ++ [.bioSubmit r]) := by
  have hnew : ∀ ret, .biocomp r ret ∉ l := fun ret h => by
    have := hi.fresh r (hi.submitted r ret h); omega
  have hr : r ∉ b.reqs := fun h => by have := hi.fresh r ((hi.pending r).1 h).1; omega
  have hk : r.num.toNat < nblkdev := by simp only [nblkdev] at hn ⊢; omega
  refine ⟨?_, fun n => ?_, ?_, fun r' => ?_, fun r' ret h => ?_, fun r' h => ?_, ?_, ?_, fun r' => ?_⟩
  · rw [Bio.sum_count _ hk]; simp only [Bio.count, hi.total]; rfl
  · by_cases h : n = r.num.toNat
    · subst h; simp [Bio.count, hi.slot, List.countP_append]
    · simp [Bio.count, Function.update_noteq h, hi.slot, List.countP_append, Ne.symm h]
  · intro r' h
    simp only [Bio.count_reqs, List.mem_append, List.mem_singleton] at h
    rcases h with h | rfl
    exacts [hi.num r' h, hn]
  · by_cases h : r' = r
    · subst h; simp [Bio.count, hnew, hr]
    · simp [Bio.count, hi.pending, h]
  · exact List.mem_append_left _ (hi.submitted r' ret (by simpa using h))
  · simp only [List.mem_append, List.mem_singleton, Event.bioSubmit.injEq] at h
    rcases h with h | rfl
    · have := hi.fresh r' h; simp only [Bio.count]; omega
    · simp only [Bio.count, hid]; omega
  · exact hi.nodup.append (List.nodup_singleton r) (List.disjoint_singleton.2 hr)
  · exact hi.done.append (.of_no_biocomp (by simp))
  · simpa [Event.completes] using hi.once r'

/-- **`biocomp`** for a record `r` the backend holds, called by the backend:
its `biodone`, and the uncount of its slot. -/
theorem biocomp (hi : ReqInv b l) {r : Biocb} (hr : r ∈ b.reqs) (ret : Int) :
    ReqInv (({ b with reqs := b.reqs.erase r } : Bio).uncount r.num.toNat)
      (l ++ [.biocomp r ret, if ret ≠ 0 then .biodone r.done r.arg 0 eio
                             else .biodone r.done r.arg r.nbytes 0]) := by
  obtain ⟨hsub, hnc⟩ := (hi.pending r).1 hr
  have hk := hi.num_lt hr
  have hperm (p : Biocb → Bool) : b.reqs.countP p = (b.reqs.erase r).countP p + if p r then 1 else 0 := by
    rw [(List.perm_cons_erase hr).countP_eq, List.countP_cons]
  refine ⟨?_, fun n => ?_, fun r' h => hi.num r' (List.mem_of_mem_erase h), fun r' => ?_,
    fun r' ret' h => ?_, fun r' h => ?_, hi.nodup.erase r, hi.done.append (.pair r ret), fun r' => ?_⟩
  · rw [Bio.sum_uncount _ hk]; simp only [Bio.uncount, hi.total]; rfl
  · have := hi.slot n
    by_cases h : n = r.num.toNat
    · subst h; simp only [hperm, beq_self_eq_true, if_true] at this; simp [Bio.uncount, this]
    · simp only [hperm, beq_iff_eq, Ne.symm h, if_false, Nat.add_zero] at this
      simp [Bio.uncount, Function.update_noteq h, this]
  · rw [Bio.uncount_reqs, hi.nodup.mem_erase_iff]
    by_cases h : r' = r
    · subst h
      simp only [ne_eq, not_true_eq_false, false_and, false_iff, not_and, not_forall, not_not]
      exact fun _ => ⟨ret, by simp⟩
    · by_cases hret : ret = 0 <;> simp [hi.pending, h, hret]
  · simp only [List.mem_append, List.mem_cons, Event.biocomp.injEq, List.not_mem_nil, or_false] at h
    rcases h with h | ⟨rfl, -⟩ | h
    · exact List.mem_append_left _ (hi.submitted r' ret' h)
    · exact List.mem_append_left _ hsub
    · split at h <;> cases h
  · refine hi.fresh r' ?_
    simp only [List.mem_append, List.mem_cons, List.not_mem_nil, or_false] at h
    rcases h with h | h | h
    · exact h
    · cases h
    · split at h <;> cases h
  · rw [List.countP_append]
    by_cases h : r = r'
    · subst h
      have h0 : l.countP (Event.completes r) = 0 :=
        List.countP_eq_zero.2 fun e he hc => by obtain ⟨ret, rfl⟩ := Event.completes_iff.1 hc; exact hnc ret he
      rw [h0]; split <;> simp [Event.completes]
    · have := hi.once r'; split <;> simp [Event.completes, h] <;> omega

end ReqInv

/-- The point of `rumpuser_bio` that creates the pump. -/
def Cont.isSpawn : Cont → Bool
  | .bioSpawn _ => true
  | _ => false

/-- The points whose code touches the block I/O globals or is the pump's:
`rumpuser_bio` past its unlocked test of `bio_inited`, and `biothread`. -/
def Cont.inBio (k : Cont) : Bool :=
  match k with
  | .bioLock _ | .bioSpawn _ | .bioSubmit _ => true
  | k => k.isPump

/-- `l'` is `l` and then events outside `p`. -/
theorem exists_append_of_take {p : Event → Bool} {l l' : List Event} (ht : l'.take l.length = l)
    (hf : l'.filter p = l.filter p) : ∃ m, l' = l ++ m ∧ ∀ e ∈ m, p e = false := by
  refine ⟨l'.drop l.length, by conv_lhs => rw [← List.take_append_drop l.length l', ht], ?_⟩
  rw [← List.take_append_drop l.length l', ht, List.filter_append, List.append_right_eq_self,
    List.filter_eq_nil_iff] at hf
  simpa using hf

namespace Sys

/-- The threads `create_thread` has not returned yet stand at the start of a
user thread. -/
def Unborn (s : Sys) : Prop := ∀ t, s.nextTid ≤ t → s.ctx t = Ctx.start .user

section
variable {s s' : Sys}

/-- A step that leaves the records and the counters alone and adds no
request event to the log. -/
structure ReqFrame (s s' : Sys) : Prop where
  total : s'.bio.total = s.bio.total
  outstanding : s'.bio.outstanding = s.bio.outstanding
  reqs : s'.bio.reqs = s.bio.reqs
  nextReq : s'.bio.nextReq = s.bio.nextReq
  log : s'.log.take s.log.length = s.log
  reqLog : s'.log.filter Event.isReq = s.log.filter Event.isReq

/-- A stretch of code outside `rumpuser_bio`'s locked part and `biothread`:
the block I/O globals as they were, no request event, the current thread
neither the pump nor about to create it, and every other thread at the
point where it stood (a thread it creates starts where the unborn do). -/
structure Plain (s s' : Sys) : Prop where
  bio : s'.bio = s.bio
  log : s'.log.take s.log.length = s.log
  reqLog : s'.log.filter Event.isReq = s.log.filter Event.isReq
  cur : (s'.pc s.cur).cont.isPump = false ∧ (s'.pc s.cur).cont.isSpawn = false
  conts : ∀ u, u ≠ s.cur → (s'.pc u).cont = (s.pc u).cont

theorem Plain.reqFrame (h : Plain s s') : ReqFrame s s' := by
  refine ⟨?_, ?_, ?_, ?_, h.log, h.reqLog⟩ <;> rw [h.bio]

/-- Code that leaves the records and the counters alone and logs no request
event. -/
theorem Footprint.reqFrame {w : Writes} (hf : Footprint w s s') (hr : w.reqs = false)
    (he : .bioSubmit ∉ w.emits ∧ .biocomp ∉ w.emits ∧ .biodone ∉ w.emits) : ReqFrame s s' :=
  have ⟨ht, ho, hq, hn⟩ := hf.reqs hr
  ⟨ht, ho, hq, hn, hf.log_take, hf.filter_log fun e hq => by
    rcases Event.kind_of_isReq hq with h | h | h <;> rw [h]
    exacts [he.1, he.2.1, he.2.2]⟩

/-- Code that writes no block I/O global and logs no request event, creates a
thread only where the unborn start, and leaves its thread outside the pump
and the spawn. -/
theorem Footprint.plain {w : Writes} (hf : Footprint w s s') (hi : w.inited = false) (hr : w.reqs = false)
    (hv : w.cv = false) (he : .bioSubmit ∉ w.emits ∧ .biocomp ∉ w.emits ∧ .biodone ∉ w.emits)
    (hc : ∀ k, w.create = some k → (s.pc s.nextTid).cont = k)
    (hd : ∀ p ∈ w.ends, p.cont.isPump = false ∧ p.cont.isSpawn = false) : Plain s s' :=
  have hq := hf.reqFrame hr he
  ⟨hf.bio_eq hi hr hv, hq.log, hq.reqLog, hd _ hf.ends, hf.cont_eq hc⟩

theorem plain_call {c : Call} (hn : s.ctx s.nextTid = Ctx.start .user) (hpc : s.pc s.cur = .run .user)
    (h : s.call c = some s') : Plain s s' := by
  refine (footprint_call hpc h).plain ?_ ?_ ?_ ?_ (fun j hj => ?_) ?_ <;> cases c <;>
    simp_all [pc, Cont.isPump, Cont.isSpawn]

theorem plain_cont {k : Cont} (hk : k.inBio = false) (hpc : s.pc s.cur = .run k) (h : s.cont k = some s') :
    Plain s s' := by
  refine (footprint_cont hpc h).plain ?_ ?_ ?_ ?_ (fun j hj => ?_) ?_ <;> cases k <;>
    simp_all [Cont.inBio, Cont.isPump, Cont.isSpawn]

theorem plain_devopenDone {num : Nat} {c : DevCaller} {res : Option BlkInfo}
    (hpc : s.pc s.cur = .run (.devopenInit num c)) : Plain s (s.devopenDone num c res) :=
  (footprint_devopenDone hpc).plain rfl rfl rfl (by decide) nofun
    (by simp [Writes.devopenDone, Cont.isPump, Cont.isSpawn])

/-- The code of `rumpuser_bio` past its unlocked test, and of `biothread`
outside its poll, leaves the records and the counters alone, but for a
submission. -/
theorem reqFrame_cont {k : Cont} (hk : k.inBio = true) (hs : ∀ a, k ≠ .bioSubmit a)
    (hpc : s.pc s.cur = .run k) (h : s.cont k = some s') : ReqFrame s s' := by
  refine (footprint_cont hpc h).reqFrame ?_ ?_ <;> cases k <;> simp_all

theorem reqFrame_pass (s : Sys) : ReqFrame s s.pass := by
  obtain ⟨l, hl, hs⟩ := pass_log s
  refine ⟨?_, ?_, ?_, ?_, by simp [hl], ?_⟩
  any_goals rw [pass_bio]
  rw [hl, List.filter_append, List.append_right_eq_self, List.filter_eq_nil_iff]
  exact fun e he => by simp [Event.isReq_of_isSched (hs e he)]

theorem unborn_init : Unborn init := fun t ht => by
  simp only [init] at ht ⊢
  rw [if_neg (show t ≠ 0 by omega)]

theorem Unborn.preserved (hu : Unborn s) (hl : ListInv s) {a : Act} (h : step s a = some s') :
    Unborn s' := by
  have hc : @LT.lt Nat _ s.cur s.nextTid := hl.cur_lt
  intro t ht
  by_cases ha : a = .pass
  · subst ha
    obtain ⟨-, -, -, rfl⟩ := step_pass h
    rw [pass_nextTid] at ht
    have hsel : s.selected ≠ some t := fun hs => by
      have : (t : Nat) < s.nextTid := hl.runq_lt t (scan_mem hs)
      omega
    rw [pass_ctx s hsel]
    exact hu t ht
  · have hf := segFrame_of_step (Nat.ne_of_lt hc) ha h
    rcases hf.next with ⟨hn, hctx, -⟩ | ⟨hn, -⟩
    · rw [hn] at ht
      rcases Nat.eq_or_lt_of_le ht with rfl | ht
      · rw [hctx]; exact hu _ le_rfl
      · rw [hf.ctx t (show (t : Nat) ≠ s.cur by omega) (show (t : Nat) ≠ s.nextTid by omega)]
        exact hu t ht.le
    · rw [hn] at ht
      rw [hf.ctx t (show (t : Nat) ≠ s.cur by omega) (show (t : Nat) ≠ s.nextTid by omega)]
      exact hu t (by omega)

theorem unborn_of_reachable (h : Reachable s) : Unborn s := by
  induction h with
  | init => exact unborn_init
  | step a hs hst ih => exact ih.preserved (listInv_of_reachable hs) hst

end

end Sys

/-! ## Every step -/

namespace ReqInv

section
variable {s s' : Sys}

theorem frame (hi : ReqInv s.bio s.log) (hf : Sys.ReqFrame s s') : ReqInv s'.bio s'.log := by
  obtain ⟨m, hm, hm'⟩ := exists_append_of_take hf.log hf.reqLog
  rw [hm]
  exact (hi.append hm').congr hf.total hf.outstanding hf.reqs hf.nextReq

theorem aioPoll (dev : Nat) : ∀ (cs : List (Nat × Int)) (s : Sys), ReqInv s.bio s.log →
    ReqInv (s.aioPoll dev cs).1.bio (s.aioPoll dev cs).1.log
  | [], _, hi => hi
  | c :: cs, s, hi => by
    simp only [Sys.aioPoll]
    split
    · next r hr =>
      refine aioPoll dev cs _ ?_
      simpa only [Sys.biocomp_bio, Sys.biocomp_log, Sys.emit_bio, Sys.emit_log, List.append_assoc,
        List.singleton_append] using hi.biocomp (List.mem_of_find?_eq_some hr) c.2
    · exact aioPoll dev cs s hi

theorem pollSlots (cs : List (Nat × Int)) : ∀ (is : List Nat) (s : Sys) (did : Nat),
    ReqInv s.bio s.log → ReqInv (Sys.pollSlots cs is s did).1.bio (Sys.pollSlots cs is s did).1.log
  | [], _, _, hi => hi
  | i :: is, s, did, hi => by
    simp only [Sys.pollSlots]
    split
    · split
      · exact hi
      · exact pollSlots cs is _ _ (aioPoll _ cs s hi)
    · exact pollSlots cs is s did hi

/-- **A turn of the poll loop** completes requests the backend holds. -/
theorem poll (hi : ReqInv s.bio s.log) (cs : List (Nat × Int)) : ReqInv (s.poll cs).bio (s.poll cs).log := by
  have h := pollSlots cs (List.range nblkdev) s 0 hi
  dsimp only [Sys.poll]
  split
  · exact h
  · split <;> exact h

/-- **`rumpuser_bio` past its unlocked test**: a submission, or a frame. -/
theorem cont (hi : ReqInv s.bio s.log) {k : Cont} (hpc : s.pc s.cur = .run k) (h : s.cont k = some s') :
    ReqInv s'.bio s'.log := by
  cases hk : k.inBio
  · exact hi.frame (Sys.plain_cont hk hpc h).reqFrame
  · by_cases hs : ∃ a, k = .bioSubmit a
    · obtain ⟨a, rfl⟩ := hs
      simp only [Sys.cont, Option.some.injEq] at h
      subst h
      dsimp only [Sys.bioSubmit]
      split
      · exact hi
      · rename_i hb
        split
        · exact hi
        · have hn : 0 ≤ a.fd - blkfdoff ∧ a.fd - blkfdoff < nblkdev := by omega
          refine congr ?_ ?_ ?_ ?_ (hi.submit rfl hn) <;> rfl
    · exact hi.frame (Sys.reqFrame_cont hk (fun a ha => hs ⟨a, ha⟩) hpc h)

theorem preserved (hi : ReqInv s.bio s.log) (hu : s.Unborn) {a : Act}
    (h : step s a = some s') : ReqInv s'.bio s'.log := by
  cases a with
  | call c =>
    obtain ⟨-, hpc, h⟩ := step_call h
    exact hi.frame (Sys.plain_call (hu _ le_rfl) hpc h).reqFrame
  | run => obtain ⟨-, k, hpc, h⟩ := step_run h; exact hi.cont hpc h
  | initDone res =>
    obtain ⟨-, num, c, hpc, rfl⟩ := step_initDone h; exact hi.frame (Sys.plain_devopenDone hpc).reqFrame
  | poll cs => obtain ⟨-, -, rfl⟩ := step_poll h; exact hi.poll cs
  | yield => obtain ⟨-, k, -, -, rfl⟩ := step_yield h; exact hi
  | pass => obtain ⟨-, -, -, rfl⟩ := step_pass h; exact hi.frame (Sys.reqFrame_pass s)
  | tick d => obtain ⟨-, rfl⟩ := step_tick h; exact hi
  | irq t => obtain ⟨-, -, -, rfl⟩ := step_irq h; exact hi

end

end ReqInv

end RumpuserXen
