import Mathlib.Algebra.BigOperators.Group.Finset
import Mathlib.Algebra.Order.BigOperators.Group.Finset
import RumpuserXen.Thread
import RumpuserXen.Blk

/- The block-I/O records and counters of rumphyper_base.c: `struct biocb`,
   `bio_inited`, `bio_outstanding_total`, `blkdev_outstanding`, and the waiters
   of `bio_cv`. The requests the backend holds (`reqs`) are the `biocb`
   records `rumpuser_bio` allocated and `biocomp` has not freed.

   `count` and `uncount` are the two updates made under `bio_mtx`; each moves
   the total and one slot by the same amount, so the total stays the sum of
   the slots (`sum_count`, `sum_uncount`). -/
namespace RumpuserXen

/-- `RUMPUSER_BIO_READ` (rumpuser.h) -/
def rumpuserBioRead : Nat := 0x01

/-- `struct biocb` with its `blkfront_aiocb`; `id` is the record's address. -/
structure Biocb where
  id : Nat
  num : Int
  done : Nat
  arg : Nat
  dev : Nat
  buf : Nat
  nbytes : Nat
  offset : Int
  write : Bool
  deriving DecidableEq, Repr

/-- The block-I/O globals of rumphyper_base.c. -/
structure Bio where
  inited : Bool
  total : Int
  outstanding : Nat → Int
  reqs : List Biocb
  nextReq : Nat
  cvWaiters : List Tid

/-- The globals at boot. -/
def Bio.init : Bio :=
  { inited := false, total := 0, outstanding := fun _ => 0, reqs := [], nextReq := 0, cvWaiters := [] }

namespace Bio

/-- `bio_outstanding_total++; blkdev_outstanding[num]++;` -/
@[simps] def count (b : Bio) (num : Nat) : Bio :=
  { b with total := b.total + 1,
           outstanding := Function.update b.outstanding num (b.outstanding num + 1) }

/-- `bio_outstanding_total--; blkdev_outstanding[num]--;` -/
@[simps] def uncount (b : Bio) (num : Nat) : Bio :=
  { b with total := b.total - 1,
           outstanding := Function.update b.outstanding num (b.outstanding num - 1) }

/-- The sum of the slot counters. -/
def sum (b : Bio) : Int := ∑ i in Finset.range nblkdev, b.outstanding i

theorem sum_update (f : Nat → Int) {n : Nat} (hn : n < nblkdev) (v : Int) :
    ∑ i in Finset.range nblkdev, Function.update f n v i
      = ∑ i in Finset.range nblkdev, f i + (v - f n) := by
  have hm : n ∈ Finset.range nblkdev := Finset.mem_range.mpr hn
  rw [Finset.sum_update_of_mem hm, Finset.sum_eq_add_sum_diff_singleton hm f]
  omega

theorem sum_count (b : Bio) {n : Nat} (hn : n < nblkdev) : (b.count n).sum = b.sum + 1 := by
  simp only [sum, count, sum_update _ hn]; omega

theorem sum_uncount (b : Bio) {n : Nat} (hn : n < nblkdev) : (b.uncount n).sum = b.sum - 1 := by
  simp only [sum, uncount, sum_update _ hn]; omega

end Bio

end RumpuserXen
