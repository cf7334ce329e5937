import Mathlib.Logic.Function.Basic
import Mathlib.Algebra.Group.Nat.Basic

/- The block-device slots of rumphyper_base.c: `devname2num`, `devopen`,
   `rumpuser_open`, `rumpuser_close` and `rumpuser_getfileinfo`, over the three
   arrays `blkdevs`, `blkinfos` and `blkopen`.

   `devopen` is cut where the code calls `init_blkfront`, the one place where
   it waits on the backend: `devopenBegin` is the reference bump of a slot that
   is open (status 1), `devopenEnd` the rest once the backend answered. The
   system model runs the two halves in different steps; `Blk.devopen` and the
   entry points below run them back to back, for one call on its own. The
   backend's answer to `init_blkfront` is an argument: `some info` for a device
   and its `blkfront_info`, `none` for NULL.

   The constants from the rumpuser interface and the C library (open modes,
   `errno` values, `RUMPUSER_FT_BLK`) are not in this repository; they have
   the values those headers give them. -/
namespace RumpuserXen

/-- `NBLKDEV` -/
def nblkdev : Nat := 10

/-- `BLKFDOFF` -/
def blkfdoff : Int := 64

/-- `RUMPUSER_OPEN_ACCMODE` (rumpuser.h) -/
def rumpuserOpenAccmode : Nat := 0x0003
/-- `RUMPUSER_OPEN_WRONLY` (rumpuser.h) -/
def rumpuserOpenWronly : Nat := 0x0001
/-- `RUMPUSER_OPEN_RDWR` (rumpuser.h) -/
def rumpuserOpenRdwr : Nat := 0x0002
/-- `RUMPUSER_OPEN_BIO` (rumpuser.h) -/
def rumpuserOpenBio : Nat := 0x0010
/-- `RUMPUSER_FT_BLK` (rumpuser.h) -/
def rumpuserFtBlk : Int := 3
/-- `O_RDWR` (fcntl.h) -/
def oRdwr : Int := 2
/-- `EIO` -/
def eio : Int := 5
/-- `ENXIO` -/
def enxio : Int := 6
/-- `EBADF` -/
def ebadf : Int := 9
/-- `EROFS` -/
def erofs : Int := 30

/-! ## Device names -/

/-- The value of a `char` holding byte `b`, where `char` is signed or not. -/
def charVal (signed : Bool) (b : UInt8) : Int :=
  if signed && 128 ≤ b.toNat then b.toNat - 256 else b.toNat

/-- `devname2num` on a target whose `char` has the given signedness: the
`strncmp` with `"blk"`, the `strlen` test, and the last character less `'0'`. -/
def devname2numOn (signed : Bool) (name : List UInt8) : Int :=
  if name.take 3 ≠ [98, 108, 107] ∨ name.length ≠ 4 then -1
  else
    let num := charVal signed (name.getD (name.length - 1) 0) - 48
    if num < 0 ∨ num ≥ nblkdev then -1 else num

/-- `devname2num` on the x86 targets of Mini-OS, where `char` is signed. -/
def devname2num (name : List UInt8) : Int := devname2numOn true name

section
variable {signed : Bool} {name : List UInt8}

/-- `devname2num` returns -1 or a slot below `NBLKDEV`. -/
theorem devname2numOn_range :
    devname2numOn signed name = -1 ∨ 0 ≤ devname2numOn signed name ∧ devname2numOn signed name < nblkdev := by
  unfold devname2numOn
  dsimp only
  split_ifs with _ h
  · exact .inl rfl
  · exact .inl rfl
  · exact .inr (by simp only [nblkdev] at h ⊢; omega)

theorem devname2numOn_of_length (h : name.length ≠ 4) : devname2numOn signed name = -1 := by
  simp [devname2numOn, h]

/-- On a four-character name: its slot if it is `blk` and a digit; a byte
above `0x7f` is negative where `char` is signed, and out of range where not. -/
theorem devname2numOn_four (a b c x : UInt8) :
    devname2numOn signed [a, b, c, x] =
      if a = 98 ∧ b = 108 ∧ c = 107 ∧ 48 ≤ x.toNat ∧ x.toNat < 58 then (x.toNat : Int) - 48 else -1 := by
  have hx : x.toNat < 256 := x.val.isLt
  by_cases h : a = 98 ∧ b = 108 ∧ c = 107
  · obtain ⟨rfl, rfl, rfl⟩ := h
    unfold devname2numOn charVal
    cases signed <;> split_ifs <;> simp_all [nblkdev] <;> omega
  · unfold devname2numOn
    rw [if_pos, if_neg] <;> simp_all

/-- `devname2num` returns the slot `n` exactly on `blk` followed by the digit of `n`. -/
theorem devname2numOn_eq_slot {n : Nat} (hn : n < nblkdev) :
    devname2numOn signed name = n ↔ ∃ x : UInt8, name = [98, 108, 107, x] ∧ x.toNat = 48 + n := by
  simp only [nblkdev] at hn
  by_cases hl : name.length = 4
  · match name, hl with
    | [a, b, c, x], _ =>
      rw [devname2numOn_four]
      constructor
      · intro h
        split_ifs at h with hc
        obtain ⟨rfl, rfl, rfl, -, -⟩ := hc
        exact ⟨x, rfl, by omega⟩
      · rintro ⟨y, hy, hyn⟩
        simp only [List.cons.injEq, and_true] at hy
        obtain ⟨rfl, rfl, rfl, rfl⟩ := hy
        rw [if_pos ⟨rfl, rfl, rfl, by omega, by omega⟩]
        omega
  · rw [devname2numOn_of_length hl]
    exact ⟨fun h => by omega, fun ⟨x, hx, _⟩ => absurd (by simp [hx]) hl⟩

end

/-- The backend path number of slot `num`: `768 + (num<<6)`. -/
def devnum (num : Nat) : Nat := 768 + (num <<< 6)

/-! ## The slot table -/

/-- `struct blkfront_info`, the fields read here. -/
structure BlkInfo where
  sectors : Nat
  sectorSize : Nat
  mode : Int
  deriving DecidableEq, Repr

/-- `blkdevs`, `blkinfos` and `blkopen`, and the backend's numbering of the
handles `init_blkfront` returns. -/
structure Blk where
  devs : Nat → Option Nat
  infos : Nat → BlkInfo
  opens : Nat → Int
  nextDev : Nat

/-- The static arrays at boot. -/
def Blk.init : Blk :=
  { devs := fun _ => none, infos := fun _ => ⟨0, 0, 0⟩, opens := fun _ => 0, nextDev := 0 }

namespace Blk

/-- `devopen` up to `init_blkfront`: a slot that is open gets one more
reference and the status 1; `none` when the device has to be initialised. -/
def devopenBegin (b : Blk) (num : Nat) : Option (Blk × Int) :=
  if b.opens num ≠ 0 then some ({ b with opens := Function.update b.opens num (b.opens num + 1) }, 1)
  else none

/-- `devopen` after `init_blkfront` answered `res`. -/
def devopenEnd (b : Blk) (num : Nat) (res : Option BlkInfo) : Blk × Int :=
  match res with
  | some info =>
    ({ b with devs := Function.update b.devs num (some b.nextDev),
              infos := Function.update b.infos num info,
              opens := Function.update b.opens num 1, nextDev := b.nextDev + 1 }, 0)
  | none => ({ b with devs := Function.update b.devs num none }, eio)

/-- `devopen`, the backend answering `res` if it is asked. -/
def devopen (b : Blk) (num : Nat) (res : Option BlkInfo) : Blk × Int :=
  (devopenBegin b num).getD (devopenEnd b num res)

/-- The rest of `rumpuser_open` once `devopen` returned `rv`: the status, and
`*fdp` when it is written. -/
def openTail (b : Blk) (num : Nat) (mode : Nat) (rv : Int) : Int × List Int :=
  if rv ≠ 0 then (rv, [])
  else
    let acc := mode &&& rumpuserOpenAccmode
    if (acc = rumpuserOpenWronly ∨ acc = rumpuserOpenRdwr) ∧ (b.infos num).mode ≠ oRdwr then (erofs, [])
    else (0, [blkfdoff + num])

/-- `rumpuser_close` up to `shutdown_blkfront`: the slots, the status, and the
handle it shuts down when the last reference goes. -/
def rumpuserClose (b : Blk) (fd : Int) : Blk × Int × Option (Option Nat) :=
  let rfd := fd - blkfdoff
  if rfd < 0 ∨ rfd + 1 > nblkdev then (b, ebadf, none)
  else
    let n := rfd.toNat
    let b := { b with opens := Function.update b.opens n (b.opens n - 1) }
    if b.opens n = 0 then ({ b with devs := Function.update b.devs n none }, 0, some (b.devs n))
    else (b, 0, none)

/-- The rest of `rumpuser_getfileinfo` once `devopen` returned `rv`: the
slots, the status, `*size` (the `uint64_t` product of the sector count and
the `unsigned` sector size, modulo 2^64) and `*type`, and what its
`rumpuser_close` shuts down. -/
def getfileinfoTail (b : Blk) (num : Nat) (rv : Int) : Blk × Int × List Int × Option (Option Nat) :=
  if rv ≠ 0 then (b, rv, [], none)
  else
    let size : Int := ((b.infos num).sectors * (b.infos num).sectorSize % 2 ^ 64 : Nat)
    let c := b.rumpuserClose (num + blkfdoff)
    (c.1, 0, [size, rumpuserFtBlk], c.2.2)

/-- `rumpuser_open`, the backend answering `res` if it is asked: the slots,
the status and `*fdp`. -/
def rumpuserOpen (b : Blk) (res : Option BlkInfo) (name : List UInt8) (mode : Nat) :
    Blk × Int × List Int :=
  if mode &&& rumpuserOpenBio = 0 ∨ devname2num name = -1 then (b, enxio, [])
  else
    let num := (devname2num name).toNat
    let d := b.devopen num res
    (d.1, openTail d.1 num mode d.2)

/-- `rumpuser_getfileinfo`, the backend answering `res` if it is asked. -/
def rumpuserGetfileinfo (b : Blk) (res : Option BlkInfo) (name : List UInt8) :
    Blk × Int × List Int × Option (Option Nat) :=
  if devname2num name = -1 then (b, enxio, [], none)
  else
    let num := (devname2num name).toNat
    let d := b.devopen num res
    getfileinfoTail d.1 num d.2

end Blk

end RumpuserXen
