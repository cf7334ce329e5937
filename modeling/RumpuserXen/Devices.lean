import RumpuserXen.System

/-
  Block-device references

  `blkopen[n]` counts the references to slot `n`; the first `devopen` of a
  slot asks the backend for a handle (`init_blkfront`), the `rumpuser_close`
  that drops the count to zero shuts it down.

  What is proved:
    1. `rumpuserOpen_of_opened` — `rumpuser_open` of a slot that is open
       takes a reference and returns 1, which its caller reads as an error;
       `rumpuserGetfileinfo_of_opened` — `rumpuser_getfileinfo` of an open
       slot does the same, and never closes what it opened;
       `rumpuserOpen_readonly` — an open for writing of a read-only device
       returns `EROFS` and keeps the reference (`XXX: unopen`);
    2. `open_blk0_twice` — two opens of `blk0` from boot: the second returns
       1 and leaves `blkopen[0] = 2`;
    3. `concurrent_opens_lose_reference` — two threads open `blk0` while the
       first waits in `init_blkfront`: both opens succeed, the slot counts
       one reference, and the first handle is overwritten by the second;
    4. `open_close_round_trip` — a successful `rumpuser_open` is the first
       reference to its slot, and the `rumpuser_close` of the descriptor it
       returned gives back the counts and shuts down the handle it stored.
-/

namespace RumpuserXen
namespace Blk

section
variable {b : Blk} {res : Option BlkInfo} {name : List UInt8} {mode num : Nat}

theorem devname2num_ne (hn : devname2num name = num) : devname2num name ≠ -1 := by
  rw [hn]; omega

/-- **`rumpuser_open` of an open slot takes a reference and fails**: the
reference bump of `devopen` returns 1, and `rumpuser_open` returns it. -/
theorem rumpuserOpen_of_opened (hn : devname2num name = num) (hm : mode &&& rumpuserOpenBio ≠ 0)
    (ho : b.opens num ≠ 0) :
    b.rumpuserOpen res name mode =
      ({ b with opens := Function.update b.opens num (b.opens num + 1) }, 1, []) := by
  simp [rumpuserOpen, hm, devname2num_ne hn, hn, devopen, devopenBegin, ho, openTail]

/-- `rumpuser_getfileinfo` of an open slot takes a reference, fails, and never
drops it. -/
theorem rumpuserGetfileinfo_of_opened (hn : devname2num name = num) (ho : b.opens num ≠ 0) :
    b.rumpuserGetfileinfo res name =
      ({ b with opens := Function.update b.opens num (b.opens num + 1) }, 1, [], none) := by
  simp [rumpuserGetfileinfo, devname2num_ne hn, hn, devopen, devopenBegin, ho, getfileinfoTail]

/-- An open for writing of a read-only device returns `EROFS`, with the slot
open and its reference taken. -/
theorem rumpuserOpen_readonly {info : BlkInfo} (hn : devname2num name = num)
    (hm : mode &&& rumpuserOpenBio ≠ 0) (ho : b.opens num = 0) (hro : info.mode ≠ oRdwr)
    (hw : mode &&& rumpuserOpenAccmode = rumpuserOpenWronly ∨
      mode &&& rumpuserOpenAccmode = rumpuserOpenRdwr) :
    (b.rumpuserOpen (some info) name mode).2.1 = erofs ∧
      (b.rumpuserOpen (some info) name mode).1.opens num = 1 ∧
      (b.rumpuserOpen (some info) name mode).1.devs num = some b.nextDev := by
  simp [rumpuserOpen, hm, devname2num_ne hn, hn, devopen, devopenBegin, ho, devopenEnd, openTail,
    hro, hw]

/-- **The reference-bump path answers otherwise than the fresh path.** For
every slot `num`, name accepted for it and mode with `RUMPUSER_OPEN_BIO`: on a
table where the slot is open, `rumpuser_open` returns 1 and no descriptor; on
one where it is closed and `init_blkfront` answers a device, it returns 0 with
the descriptor `BLKFDOFF + num`, or `EROFS`. `rumpuser_getfileinfo` returns 1,
with no size and no type, on an open slot, and 0 with the size and
`RUMPUSER_FT_BLK` on a closed one. -/
theorem open_paths_differ {c : Blk} {info : BlkInfo} (hn : devname2num name = num)
    (hm : mode &&& rumpuserOpenBio ≠ 0) (hb : b.opens num ≠ 0) (hc : c.opens num = 0) :
    (b.rumpuserOpen res name mode).2 = (1, []) ∧
    ((c.rumpuserOpen (some info) name mode).2 = (0, [blkfdoff + num]) ∨
      (c.rumpuserOpen (some info) name mode).2 = (erofs, [])) ∧
    (b.rumpuserGetfileinfo res name).2.1 = 1 ∧ (b.rumpuserGetfileinfo res name).2.2.1 = [] ∧
    (c.rumpuserGetfileinfo (some info) name).2.1 = 0 ∧
    (c.rumpuserGetfileinfo (some info) name).2.2.1 =
      [((info.sectors * info.sectorSize % 2 ^ 64 : Nat) : Int), rumpuserFtBlk] := by
  refine ⟨by rw [rumpuserOpen_of_opened hn hm hb], ?_, by rw [rumpuserGetfileinfo_of_opened hn hb],
    by rw [rumpuserGetfileinfo_of_opened hn hb], ?_, ?_⟩
  · simp only [rumpuserOpen, hm, devname2num_ne hn, hn]
    simp [devopen, devopenBegin, hc, devopenEnd, openTail]
    tauto
  all_goals simp [rumpuserGetfileinfo, devname2num_ne hn, hn, devopen, devopenBegin, hc, devopenEnd,
    getfileinfoTail]

/-- **A successful open and the close of its descriptor balance.** For every
slot table, backend answer, name and mode: when `rumpuser_open` returns 0 with
a descriptor, the name named a slot `n < NBLKDEV` that was closed, the open
stored the backend's next handle in it, and the descriptor is `BLKFDOFF + n`;
`rumpuser_close` of that descriptor returns 0, gives back the reference
counts of the table before the open, clears the slot, and shuts down the
handle the open stored. -/
theorem open_close_round_trip {fd : Int} (h : (b.rumpuserOpen res name mode).2 = (0, [fd])) :
    (devname2num name).toNat < nblkdev ∧ b.opens (devname2num name).toNat = 0 ∧
    (b.rumpuserOpen res name mode).1.devs (devname2num name).toNat = some b.nextDev ∧
    fd = blkfdoff + (devname2num name).toNat ∧
    ((b.rumpuserOpen res name mode).1.rumpuserClose fd).2.1 = 0 ∧
    ((b.rumpuserOpen res name mode).1.rumpuserClose fd).1.opens = b.opens ∧
    ((b.rumpuserOpen res name mode).1.rumpuserClose fd).1.devs (devname2num name).toNat = none ∧
    ((b.rumpuserOpen res name mode).1.rumpuserClose fd).2.2 = some (some b.nextDev) := by
  have hm : mode &&& rumpuserOpenBio ≠ 0 ∧ devname2num name ≠ -1 := by
    by_contra hc
    rw [rumpuserOpen, if_pos (by tauto)] at h
    simp [enxio] at h
  have hr := @devname2numOn_range true name
  obtain ⟨n, hdn⟩ : ∃ n : Nat, devname2num name = n :=
    ⟨_, (Int.toNat_of_nonneg (by simp only [devname2num] at hm hr ⊢; omega)).symm⟩
  have hn : n < nblkdev := by simp only [devname2num, nblkdev] at hm hr hdn ⊢; omega
  have ho : b.opens n = 0 := by
    by_contra ho
    rw [rumpuserOpen_of_opened hdn hm.1 ho] at h
    simp at h
  simp only [hdn, Int.toNat_ofNat]
  cases res with
  | none => simp [rumpuserOpen, hm.1, hdn, devopen, devopenBegin, ho, devopenEnd, openTail, eio] at h
  | some info =>
    simp [rumpuserOpen, hm.1, hdn, devopen, devopenBegin, ho, devopenEnd, openTail] at h ⊢
    split_ifs at h
    · simp [erofs] at h
    · simp only [Prod.mk.injEq, List.cons.injEq, and_true, true_and] at h
      subst h
      have h10 : n < 10 := hn
      have hc : ¬((n : Int) < 0 ∨ (n : Int) + 1 > 10) := by omega
      simp only [rumpuserClose, add_sub_cancel_left, Int.toNat_ofNat, nblkdev, Nat.cast_ofNat, if_neg hc]
      simp [funext_iff, Function.update_apply, ho, h10]

/-- `rumpuser_open("blk0", RUMPUSER_OPEN_BIO)` from boot, the backend answering
a writable device, returns 0 with the descriptor 64; its close balances it. -/
theorem open_close_round_trip_blk0 :
    (Blk.init.rumpuserOpen (some ⟨8, 512, 2⟩) [98, 108, 107, 48] 16).2 = (0, [64]) ∧
    (devname2num [98, 108, 107, 48]).toNat < nblkdev ∧ Blk.init.opens (devname2num [98, 108, 107, 48]).toNat = 0 ∧
    (Blk.init.rumpuserOpen (some ⟨8, 512, 2⟩) [98, 108, 107, 48] 16).1.devs (devname2num [98, 108, 107, 48]).toNat =
      some Blk.init.nextDev ∧
    64 = blkfdoff + (devname2num [98, 108, 107, 48]).toNat ∧
    ((Blk.init.rumpuserOpen (some ⟨8, 512, 2⟩) [98, 108, 107, 48] 16).1.rumpuserClose 64).2.1 = 0 ∧
    ((Blk.init.rumpuserOpen (some ⟨8, 512, 2⟩) [98, 108, 107, 48] 16).1.rumpuserClose 64).1.opens = Blk.init.opens ∧
    ((Blk.init.rumpuserOpen (some ⟨8, 512, 2⟩) [98, 108, 107, 48] 16).1.rumpuserClose 64).1.devs
      (devname2num [98, 108, 107, 48]).toNat = none ∧
    ((Blk.init.rumpuserOpen (some ⟨8, 512, 2⟩) [98, 108, 107, 48] 16).1.rumpuserClose 64).2.2 =
      some (some Blk.init.nextDev) :=
  ⟨by decide, open_close_round_trip (by decide)⟩

end

end Blk

/-- **`devname2num` accepts exactly `blk0` to `blk9`**, whatever the
signedness of `char`: it returns a slot `n < NBLKDEV` exactly for `blk`
followed by the digit `n`, and -1 for every other name. So `rumpuser_open`
and `rumpuser_getfileinfo` return `ENXIO`, or go on to `devopen` with a slot
below `NBLKDEV`, the one index they use into `blkopen`, `blkdevs` and
`blkinfos`. -/
theorem devname2num_exact (signed : Bool) (name : List UInt8) :
    (∀ n : Nat, n < nblkdev →
      (devname2numOn signed name = n ↔ ∃ x : UInt8, name = [98, 108, 107, x] ∧ x.toNat = 48 + n)) ∧
    ((∀ n : Nat, n < nblkdev → ∀ x : UInt8, x.toNat = 48 + n → name ≠ [98, 108, 107, x]) →
      devname2numOn signed name = -1) ∧
    (∀ (s : Sys) (mode : Nat), s.rumpuserOpen name mode = s.retOut enxio [] ∨
      ∃ n < nblkdev, s.rumpuserOpen name mode = s.devopen n (.open mode)) ∧
    (∀ s : Sys, s.rumpuserGetfileinfo name = s.retOut enxio [] ∨
      ∃ n < nblkdev, s.rumpuserGetfileinfo name = s.devopen n .getfileinfo) := by
  have hlt : devname2num name ≠ -1 → (devname2num name).toNat < nblkdev := fun h => by
    have := @devname2numOn_range true name
    simp only [devname2num, nblkdev] at h this ⊢
    omega
  refine ⟨fun n hn => devname2numOn_eq_slot hn, fun hne => ?_, fun s mode => ?_, fun s => ?_⟩
  · rcases @devname2numOn_range signed name with h | ⟨h0, h10⟩
    · exact h
    · obtain ⟨x, hx, hxn⟩ :=
        (devname2numOn_eq_slot (by simp only [nblkdev] at h10 ⊢; omega)).1 (Int.toNat_of_nonneg h0).symm
      exact absurd hx (hne _ (by simp only [nblkdev] at h10 ⊢; omega) x hxn)
  · unfold Sys.rumpuserOpen
    split_ifs with h
    · exact .inl rfl
    · exact .inr ⟨_, hlt fun he => h (.inr he), rfl⟩
  · unfold Sys.rumpuserGetfileinfo
    split_ifs with h
    · exact .inl rfl
    · exact .inr ⟨_, hlt h, rfl⟩

/-- `"blk0"` -/
def blk0 : List UInt8 := [98, 108, 107, 48]

/-- A device the backend may answer `init_blkfront` with: 8 sectors of 512
bytes, writable. -/
def diskInfo : BlkInfo := ⟨8, 512, oRdwr⟩

/-- `rumpuser_open("blk0", RUMPUSER_OPEN_BIO)` twice from boot, the backend
answering `init_blkfront` with `diskInfo`: the first returns 0 with one
reference, the second returns 1 and leaves two. -/
theorem open_blk0_twice :
    (Blk.init.rumpuserOpen (some diskInfo) blk0 rumpuserOpenBio).2.1 = 0 ∧
      (Blk.init.rumpuserOpen (some diskInfo) blk0 rumpuserOpenBio).1.opens 0 = 1 ∧
      ((Blk.init.rumpuserOpen (some diskInfo) blk0 rumpuserOpenBio).1.rumpuserOpen
        (some diskInfo) blk0 rumpuserOpenBio).2.1 = 1 ∧
      ((Blk.init.rumpuserOpen (some diskInfo) blk0 rumpuserOpenBio).1.rumpuserOpen
        (some diskInfo) blk0 rumpuserOpenBio).1.opens 0 = 2 := by
  decide

/-- The second open of `blk0` returns 1 and no descriptor, where the first
returned 0 with the descriptor 64; `rumpuser_getfileinfo("blk0")` returns 1
while `blk0` is open, and 0 with 4096 bytes and `RUMPUSER_FT_BLK` from boot. -/
theorem open_paths_differ_blk0 :
    ((Blk.init.rumpuserOpen (some diskInfo) blk0 rumpuserOpenBio).1.rumpuserOpen (some diskInfo) blk0
      rumpuserOpenBio).2 = (1, []) ∧
    (Blk.init.rumpuserOpen (some diskInfo) blk0 rumpuserOpenBio).2 = (0, [64]) ∧
    ((Blk.init.rumpuserOpen (some diskInfo) blk0 rumpuserOpenBio).1.rumpuserGetfileinfo (some diskInfo)
      blk0).2.1 = 1 ∧
    (Blk.init.rumpuserGetfileinfo (some diskInfo) blk0).2.1 = 0 ∧
    (Blk.init.rumpuserGetfileinfo (some diskInfo) blk0).2.2.1 = [4096, 3] := by
  have h := @Blk.open_paths_differ (Blk.init.rumpuserOpen (some diskInfo) blk0 rumpuserOpenBio).1 (some diskInfo)
    blk0 rumpuserOpenBio 0 Blk.init diskInfo (by decide) (by decide) (by decide) rfl
  exact ⟨h.1, h.2.1.resolve_right (by decide), h.2.2.1, h.2.2.2.2.1, h.2.2.2.2.2⟩

/-- Boot; the idle thread blocks and the main thread runs. It creates a second
thread and opens `blk0`, which waits in `init_blkfront`; the second thread
runs and opens `blk0` as well, and waits in its own `init_blkfront`. The
backend wakes and answers the main thread first, then the second thread. -/
def raceTrace : List Act :=
  [.run, .pass, .call (.createThread none 0 false), .call (.open blk0 rumpuserOpenBio), .pass,
   .call (.open blk0 rumpuserOpenBio), .irq 1, .pass, .initDone (some diskInfo), .call .schedule,
   .irq 2, .pass, .initDone (some diskInfo)]

/-- Both opens of `blk0` return 0 with the descriptor 64, yet `blkopen[0]` is
1, and the handle the first `init_blkfront` stored is overwritten by the
second. -/
theorem concurrent_opens_lose_reference :
    ∃ s, Reachable s ∧ (s.ctx 1).ret = 0 ∧ (s.ctx 1).out = [64] ∧ (s.ctx 2).ret = 0 ∧
      (s.ctx 2).out = [64] ∧ s.blk.opens 0 = 1 ∧ Event.initDone 768 (some 0) ∈ s.log ∧
      s.blk.devs 0 = some 1 := by
  obtain ⟨s, hs, hp⟩ := reach_of_run (l := raceTrace)
    (p := fun s => (s.ctx 1).ret == 0 && (s.ctx 1).out == [64] && (s.ctx 2).ret == 0 &&
      (s.ctx 2).out == [64] && s.blk.opens 0 == 1 && decide (Event.initDone 768 (some 0) ∈ s.log) &&
      s.blk.devs 0 == some 1) (by decide)
  simp only [Bool.and_eq_true, beq_iff_eq, decide_eq_true_eq] at hp
  obtain ⟨⟨⟨⟨⟨⟨h1, h2⟩, h3⟩, h4⟩, h5⟩, h6⟩, h7⟩ := hp
  exact ⟨s, hs, h1, h2, h3, h4, h5, h6, h7⟩

end RumpuserXen
