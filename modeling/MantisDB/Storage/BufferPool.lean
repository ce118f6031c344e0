import MantisDB.CInt
import Mathlib.Data.List.Nodup
import Mathlib.Data.Finset.Card
import Mathlib.Logic.Function.Iterate
import Mathlib.Order.Interval.Finset.Defs
import Mathlib.Data.Int.Interval

/-!
# The buffer pool

`buffer_pool_create`, `buffer_pool_get_page` and `buffer_pool_release_page`
(`src/cgo/buffer_pool.c`).  The free list is a stack of frame indices: `get_page`
pops a frame and pins it with one reference, `release_page` drops a reference and
pushes the frame back when the count reaches 0.

`ref_count` is an unguarded `int`: a frame released while free goes below 0 and keeps
its place on the free list, and `2^31 + 1` such releases wrap the count to `INT_MAX`.
The frame is then free with a positive count, and `get_page` hands it out again
(`bufferPool_release_wrap`).  Where no release is passed a frame at `INT_MIN`, and the
pool's indices fit an `int`, the free list is exactly the frames with no references,
without repetition, and a release never writes past it (`bufferPool_inv`).
-/

namespace MantisDB
namespace Storage

/-- `PAGE_SIZE`. -/
def PAGE_SIZE : ℕ := 4096

/-- `buffer_page_t` without its `data`, which nothing here reads or writes. -/
structure BufferPage where
  pageId : ℤ
  dirty : Bool
  pinned : Bool
  refCount : ℤ
  deriving DecidableEq, Repr

/-- The page `calloc` leaves: every field zero. -/
def BufferPage.zero : BufferPage := ⟨0, false, false, 0⟩

/-- `buffer_pool_t`: `num_pages` is the length of `pages`, and `free_list` has as many
`int` cells.  `outOfBounds` records a write of `pages` or `free_list` outside their
cells; `pool_size` is read by nothing after `buffer_pool_create`. -/
structure BufferPool where
  pages : List BufferPage
  freeList : List ℤ
  freeCount : ℕ
  outOfBounds : Bool
  deriving DecidableEq, Repr

/-- `pool->pages[i]`. -/
def BufferPool.page (pool : BufferPool) (i : ℕ) : BufferPage := pool.pages.getD i .zero

/-- A write of `pool->pages[i]`. -/
def BufferPool.setPage (pool : BufferPool) (i : ℕ) (pg : BufferPage) : BufferPool :=
  { pool with pages := pool.pages.set i pg }

/-- `buffer_pool_create`, on successful allocations: `pool_size / PAGE_SIZE` zeroed
frames, all of them on the free list, `free_list[i] = i` converted to `int`. -/
def bufferPoolCreate (poolSize : ℕ) : BufferPool :=
  let numPages := poolSize / PAGE_SIZE
  ⟨List.replicate numPages .zero, (List.range numPages).map fun (i : ℕ) => int32 i, numPages, false⟩

/-- `buffer_pool_get_page`: the frame `free_list[--free_count]`, given the page id and
pinned with one reference; `NULL` when the free list is empty.  The handle returned is
the frame's index. -/
def bufferPoolGetPage (pool : BufferPool) (pageId : ℤ) : Option ℤ × BufferPool :=
  if pool.freeCount = 0 then (none, pool)
  else
    let freeIdx := pool.freeList.getD (pool.freeCount - 1) 0
    let pool := { pool with freeCount := pool.freeCount - 1 }
    if 0 ≤ freeIdx ∧ freeIdx < pool.pages.length then
      let page := { pool.page freeIdx.toNat with
        pageId := pageId, dirty := false, pinned := true, refCount := 1 }
      (some freeIdx, pool.setPage freeIdx.toNat page)
    else (some freeIdx, { pool with outOfBounds := true })

/-- `buffer_pool_release_page` on the frame of index `p` (`page - pool->pages`): one
reference less, and at 0 the frame unpinned and pushed on the free list. -/
def bufferPoolReleasePage (pool : BufferPool) (p : ℕ) : BufferPool :=
  let refCount := int32 ((pool.page p).refCount - 1)
  let pool := pool.setPage p { pool.page p with refCount := refCount }
  if refCount = 0 then
    let pool := pool.setPage p { pool.page p with pinned := false }
    if pool.freeCount < pool.freeList.length then
      { pool with freeList := pool.freeList.set pool.freeCount (int32 p), freeCount := pool.freeCount + 1 }
    else { pool with freeCount := pool.freeCount + 1, outOfBounds := true }
  else pool

/-! ### Frames -/

section Page

variable {pool : BufferPool} {i j : ℕ} {pg pg' : BufferPage}

@[simp] theorem BufferPool.setPage_length : (pool.setPage i pg).pages.length = pool.pages.length :=
  List.length_set ..

@[simp] theorem BufferPool.setPage_freeList : (pool.setPage i pg).freeList = pool.freeList := rfl

@[simp] theorem BufferPool.setPage_freeCount : (pool.setPage i pg).freeCount = pool.freeCount := rfl

@[simp] theorem BufferPool.setPage_outOfBounds : (pool.setPage i pg).outOfBounds = pool.outOfBounds := rfl

theorem BufferPool.page_setPage_self (h : i < pool.pages.length) : (pool.setPage i pg).page i = pg := by
  simp [BufferPool.page, BufferPool.setPage, List.getD_eq_getElem?_getD, h]

theorem BufferPool.page_setPage_ne (h : j ≠ i) : (pool.setPage i pg).page j = pool.page j := by
  simp [BufferPool.page, BufferPool.setPage, List.getD_eq_getElem?_getD, List.getElem?_set_ne (Ne.symm h)]

@[simp] theorem BufferPool.setPage_setPage : (pool.setPage i pg).setPage i pg' = pool.setPage i pg' := by
  simp [BufferPool.setPage]

end Page

/-! ### The invariant -/

/-- The free frames: the first `free_count` entries of the free list. -/
def BufferPool.free (pool : BufferPool) : List ℤ := pool.freeList.take pool.freeCount

/-- The number of pinned frames. -/
def BufferPool.pinnedCount (pool : BufferPool) : ℕ :=
  (List.range pool.pages.length).countP fun i => (pool.page i).pinned

/-- Frame `i`, holding `pg`, agrees with the free frames `free`: it is among them exactly
when its `ref_count` is at most 0, it is pinned exactly when the count is positive, and
the count is an `int` of at most 1. -/
structure FrameInv (free : List ℤ) (i : ℕ) (pg : BufferPage) : Prop where
  free_iff : (i : ℤ) ∈ free ↔ pg.refCount ≤ 0
  pinned_iff : pg.pinned = true ↔ 0 < pg.refCount
  refCount_mem : -2 ^ 31 ≤ pg.refCount ∧ pg.refCount ≤ 1

/-- The pool is consistent: the free list has a cell per frame; its first `free_count`
entries are distinct frames; every frame agrees with them; and no write has gone outside
the arrays. -/
structure PoolInv (pool : BufferPool) : Prop where
  freeList_length : pool.freeList.length = pool.pages.length
  freeCount_le : pool.freeCount ≤ pool.pages.length
  nodup : pool.free.Nodup
  free_lt : ∀ x ∈ pool.free, 0 ≤ x ∧ x < pool.pages.length
  frame : ∀ i < pool.pages.length, FrameInv pool.free i (pool.page i)
  inBounds : pool.outOfBounds = false

section Inv

variable {pool : BufferPool} {p : ℕ}

theorem FrameInv.congr_free {l l' : List ℤ} {i : ℕ} {pg : BufferPage} (h : FrameInv l i pg)
    (hm : (i : ℤ) ∈ l' ↔ (i : ℤ) ∈ l) : FrameInv l' i pg :=
  ⟨hm.trans h.free_iff, h.pinned_iff, h.refCount_mem⟩

/-- A write of frame `p` keeps every frame consistent with a new free list `l`, when the
page written is, and `l` agrees with the old free list on the other frames. -/
theorem frameInv_setPage {q : BufferPool} {l₀ l : List ℤ} {pg : BufferPage}
    (hq : ∀ i < q.pages.length, FrameInv l₀ i (q.page i)) (hp : p < q.pages.length)
    (hl : ∀ i, i ≠ p → ((i : ℤ) ∈ l ↔ (i : ℤ) ∈ l₀)) (hpg : FrameInv l p pg) :
    ∀ i < q.pages.length, FrameInv l i ((q.setPage p pg).page i) := by
  intro i hi
  by_cases hip : i = p
  · subst hip; rw [BufferPool.page_setPage_self hp]; exact hpg
  · rw [BufferPool.page_setPage_ne hip]; exact (hq i hi).congr_free (hl i hip)

/-- A free list of distinct frames that misses one frame has room for it. -/
theorem length_lt_of_not_mem {l : List ℤ} {n : ℕ} (hd : l.Nodup) (hl : ∀ x ∈ l, 0 ≤ x ∧ x < n)
    (hp : p < n) (hnp : (p : ℤ) ∉ l) : l.length < n := by
  have hsub : l.toFinset ⊆ (Finset.Ico (0 : ℤ) n).erase p := fun x hx => by
    have hx := List.mem_toFinset.1 hx
    exact Finset.mem_erase.2 ⟨fun h => hnp (h ▸ hx), Finset.mem_Ico.2 (hl x hx)⟩
  have hcard := Finset.card_le_card hsub
  rw [List.toFinset_card_of_nodup hd, Finset.card_erase_of_mem (Finset.mem_Ico.2 ⟨by omega, by omega⟩),
    Int.card_Ico] at hcard
  omega

theorem take_set_succ (l : List ℤ) {n : ℕ} (h : n < l.length) (a : ℤ) :
    (l.set n a).take (n + 1) = l.take n ++ [a] := by
  rw [List.take_succ, List.set_take, List.set_eq_of_length_le (by simp), List.getElem?_set_self h]; rfl

theorem int32_natCast {n : ℕ} (h : n < 2 ^ 31) : int32 n = n :=
  int32_of_lt (by omega) (by exact_mod_cast h)

/-- `buffer_pool_create` leaves every frame free, on a pool whose indices fit an `int`. -/
theorem PoolInv.create (poolSize : ℕ) (hn : poolSize / PAGE_SIZE ≤ 2 ^ 31) :
    PoolInv (bufferPoolCreate poolSize) := by
  have hmap : ((List.range (poolSize / PAGE_SIZE)).map fun (i : ℕ) => int32 i) =
      (List.range (poolSize / PAGE_SIZE)).map fun (i : ℕ) => (i : ℤ) :=
    List.map_congr_left fun i hi => int32_natCast (by rw [List.mem_range] at hi; omega)
  have hfree : (bufferPoolCreate poolSize).free =
      (List.range (poolSize / PAGE_SIZE)).map fun (i : ℕ) => (i : ℤ) := by
    rw [BufferPool.free, bufferPoolCreate]; simp only [hmap, List.take_of_length_le, List.length_map,
      List.length_range, le_refl]
  have hlen : (bufferPoolCreate poolSize).pages.length = poolSize / PAGE_SIZE := List.length_replicate ..
  refine ⟨by simp [bufferPoolCreate], hlen.ge, ?_, ?_, fun i hi => ?_, rfl⟩
  · rw [hfree]; exact (List.nodup_range _).map Nat.cast_injective
  · rw [hfree, hlen]; intro x hx
    obtain ⟨i, hi, rfl⟩ := List.mem_map.1 hx
    rw [List.mem_range] at hi; omega
  · rw [hlen] at hi
    have hpage : (bufferPoolCreate poolSize).page i = .zero := by
      simp [BufferPool.page, bufferPoolCreate, hi]
    rw [hfree, hpage]
    exact ⟨by simp [BufferPage.zero, hi], by simp [BufferPage.zero], by simp [BufferPage.zero]⟩

theorem bufferPoolGetPage_length (pool : BufferPool) (pageId : ℤ) :
    (bufferPoolGetPage pool pageId).2.pages.length = pool.pages.length := by
  unfold bufferPoolGetPage; dsimp only; split_ifs <;> simp

theorem bufferPoolReleasePage_length (pool : BufferPool) (p : ℕ) :
    (bufferPoolReleasePage pool p).pages.length = pool.pages.length := by
  unfold bufferPoolReleasePage; dsimp only; split_ifs <;> simp

/-- The top of the free list. -/
theorem PoolInv.free_eq (h : PoolInv pool) {k : ℕ} (hk : pool.freeCount = k + 1) :
    pool.free = pool.freeList.take k ++ [pool.freeList.getD k 0] := by
  have hlt : k < pool.freeList.length := by have := h.freeCount_le; rw [h.freeList_length]; omega
  rw [BufferPool.free, hk, List.take_succ, List.getD_eq_getElem?_getD, List.getElem?_eq_getElem hlt]
  rfl

/-- On a consistent pool `get_page` pops the top of the free list, a frame of the pool. -/
theorem PoolInv.getPage_eq (h : PoolInv pool) {k : ℕ} (hk : pool.freeCount = k + 1) (pageId : ℤ) :
    bufferPoolGetPage pool pageId = (some (pool.freeList.getD k 0),
      ({ pool with freeCount := k } : BufferPool).setPage (pool.freeList.getD k 0).toNat
        { pool.page (pool.freeList.getD k 0).toNat with
          pageId := pageId, dirty := false, pinned := true, refCount := 1 }) := by
  have hx := h.free_lt _ ((h.free_eq hk).symm ▸ List.mem_append_right _ (List.mem_singleton_self _))
  rw [bufferPoolGetPage, if_neg (by omega)]
  simp only [hk, Nat.add_sub_cancel]
  rw [if_pos hx]

/-- **`get_page` keeps the pool consistent**, and what it returns is a free frame of the
pool, one with no references. -/
theorem PoolInv.getPage (h : PoolInv pool) (pageId : ℤ) :
    PoolInv (bufferPoolGetPage pool pageId).2 ∧
      ∀ x, (bufferPoolGetPage pool pageId).1 = some x →
        x ∈ pool.free ∧ 0 ≤ x ∧ x < pool.pages.length ∧ (pool.page x.toNat).refCount ≤ 0 := by
  rcases hk : pool.freeCount with _ | k
  · rw [bufferPoolGetPage, if_pos hk]
    exact ⟨h, fun x hx => by simp at hx⟩
  have hfree := h.free_eq hk
  rw [h.getPage_eq hk]
  generalize pool.freeList.getD k 0 = x at hfree ⊢
  have hxmem : x ∈ pool.free := hfree ▸ List.mem_append_right _ (List.mem_singleton_self _)
  obtain ⟨hx0, hxn⟩ := h.free_lt x hxmem
  have hxi : ((x.toNat : ℕ) : ℤ) = x := Int.toNat_of_nonneg hx0
  have hnd := h.nodup
  rw [hfree, List.nodup_append] at hnd
  have hxk : x ∉ pool.freeList.take k := fun hm => hnd.2.2 hm (List.mem_singleton_self _)
  refine ⟨⟨by simp [h.freeList_length], by simp; have := h.freeCount_le; omega, hnd.1,
    fun y hy => by simpa using h.free_lt y (hfree ▸ List.mem_append_left _ hy), fun i hi => ?_,
    h.inBounds⟩, ?_⟩
  · show FrameInv (pool.freeList.take k) i _
    refine frameInv_setPage h.frame (by omega) (fun j hj => ?_) ⟨by simp [hxi, hxk], by simp, by simp⟩ i
      (by simpa using hi)
    have hne : (j : ℤ) ≠ x := fun h => hj (by omega)
    simp [hfree, hne]
  · rintro y ⟨⟩
    exact ⟨hxmem, hx0, hxn, (h.frame _ (by omega)).free_iff.1 (hxi.symm ▸ hxmem)⟩

/-- Where the count is an `int` of at most 1, a release brings it to 0 exactly from 1. -/
theorem int32_pred_eq_zero {r : ℤ} (h₁ : -2 ^ 31 ≤ r) (h₂ : r ≤ 1) : int32 (r - 1) = 0 ↔ r = 1 := by
  rcases eq_or_lt_of_le h₁ with rfl | h₁
  · decide
  · rw [int32_of_lt (by omega) (by omega)]; omega

/-- A release that does not bring the count to 0 only writes the count. -/
theorem bufferPoolReleasePage_of_ne (h : int32 ((pool.page p).refCount - 1) ≠ 0) :
    bufferPoolReleasePage pool p =
      pool.setPage p { pool.page p with refCount := int32 ((pool.page p).refCount - 1) } :=
  if_neg h

/-- A release that brings the count to 0 unpins the frame and pushes it on the free list,
where the list has a cell left. -/
theorem bufferPoolReleasePage_of_eq (hp : p < pool.pages.length)
    (h : int32 ((pool.page p).refCount - 1) = 0) (hc : pool.freeCount < pool.freeList.length) :
    bufferPoolReleasePage pool p =
      { pool.setPage p { pool.page p with refCount := 0, pinned := false } with
        freeList := pool.freeList.set pool.freeCount (int32 p), freeCount := pool.freeCount + 1 } := by
  rw [bufferPoolReleasePage]
  simp only [h, if_true, BufferPool.page_setPage_self hp, BufferPool.setPage_setPage,
    BufferPool.setPage_freeCount, BufferPool.setPage_freeList, hc]

/-- On a consistent pool, a frame with a reference has a cell left for it on the free list. -/
theorem PoolInv.freeCount_lt (h : PoolInv pool) (hp : p < pool.pages.length)
    (hr : 0 < (pool.page p).refCount) : pool.freeCount < pool.freeList.length := by
  have hnp : (p : ℤ) ∉ pool.free := fun hm => absurd ((h.frame p hp).free_iff.1 hm) (by omega)
  have hlt := length_lt_of_not_mem h.nodup h.free_lt hp hnp
  rw [BufferPool.free, List.length_take] at hlt
  have := h.freeCount_le
  have := h.freeList_length
  omega

/-- **`release_page` keeps the pool consistent**, on a frame of the pool whose count is
not `INT_MIN`, in a pool whose indices fit an `int`. -/
theorem PoolInv.releasePage (h : PoolInv pool) (hn : pool.pages.length ≤ 2 ^ 31)
    (hp : p < pool.pages.length) (hmin : (pool.page p).refCount ≠ -2 ^ 31) :
    PoolInv (bufferPoolReleasePage pool p) := by
  obtain ⟨hfi, hpi, hlo, hhi⟩ := h.frame p hp
  by_cases h1 : (pool.page p).refCount = 1
  · -- the last reference: the frame goes back on the free list
    have hc := h.freeCount_lt hp (by omega)
    have hnp : (p : ℤ) ∉ pool.free := fun hm => absurd (hfi.1 hm) (by omega)
    rw [bufferPoolReleasePage_of_eq hp (by rw [h1]; rfl) hc]
    have hfree : (pool.freeList.set pool.freeCount (int32 p)).take (pool.freeCount + 1) =
        pool.free ++ [(p : ℤ)] := by
      rw [take_set_succ _ hc, int32_natCast (by omega)]; rfl
    refine ⟨by simp [h.freeList_length], by simp; have := h.freeList_length; omega, ?_, ?_,
      fun i hi => ?_, h.inBounds⟩
    · show (List.take _ _).Nodup
      rw [hfree]
      exact List.nodup_append.2 ⟨h.nodup, List.nodup_singleton _, by simpa using hnp⟩
    · show ∀ x ∈ List.take _ _, _
      rw [hfree]
      intro x hx
      rcases List.mem_append.1 hx with hx | hx
      · simpa using h.free_lt x hx
      · rw [List.mem_singleton.1 hx]; exact ⟨Int.natCast_nonneg p, by simpa using hp⟩
    · show FrameInv (List.take _ _) i ((pool.setPage p _).page i)
      rw [hfree]
      exact frameInv_setPage h.frame hp (fun j hj => by simp [hj]) ⟨by simp, by simp, by simp⟩ i
        (by simpa using hi)
  · -- the frame was free: its count only goes down
    have hr : (pool.page p).refCount ≤ 0 := by omega
    have hdec : int32 ((pool.page p).refCount - 1) = (pool.page p).refCount - 1 :=
      int32_of_lt (by omega) (by omega)
    rw [bufferPoolReleasePage_of_ne (by omega), hdec]
    refine ⟨by simp [h.freeList_length], by simpa using h.freeCount_le, h.nodup,
      by simpa using h.free_lt, fun i hi => ?_, h.inBounds⟩
    refine frameInv_setPage h.frame hp (fun _ _ => Iff.rfl) ⟨iff_of_true (hfi.2 hr) (by dsimp only; omega),
      ?_, by dsimp only; omega⟩ i (by simpa using hi)
    dsimp only
    rw [hpi]; omega

/-- On a consistent pool, `release_page` of a frame of the pool never writes outside the
arrays, whatever the frame's count. -/
theorem PoolInv.releasePage_inBounds (h : PoolInv pool) (hp : p < pool.pages.length) :
    (bufferPoolReleasePage pool p).outOfBounds = false := by
  obtain ⟨-, -, hlo, hhi⟩ := h.frame p hp
  by_cases h0 : int32 ((pool.page p).refCount - 1) = 0
  · have h1 := (int32_pred_eq_zero hlo hhi).1 h0
    rw [bufferPoolReleasePage_of_eq hp h0 (h.freeCount_lt hp (by omega))]
    exact h.inBounds
  · rw [bufferPoolReleasePage_of_ne h0]
    exact h.inBounds

/-- The free frames are the frames that are not pinned, each once. -/
theorem PoolInv.free_perm (h : PoolInv pool) :
    pool.free.Perm (((List.range pool.pages.length).filter fun i => !(pool.page i).pinned).map
      fun (i : ℕ) => (i : ℤ)) := by
  refine (List.perm_ext_iff_of_nodup h.nodup (((List.nodup_range _).filter _).map Nat.cast_injective)).2
    fun x => ⟨fun hx => ?_, fun hx => ?_⟩
  · obtain ⟨hx0, hxn⟩ := h.free_lt x hx
    have hxi : ((x.toNat : ℕ) : ℤ) = x := Int.toNat_of_nonneg hx0
    have hf := h.frame x.toNat (by omega)
    have hr := hf.free_iff.1 (hxi.symm ▸ hx)
    refine List.mem_map.2 ⟨x.toNat, List.mem_filter.2 ⟨List.mem_range.2 (by omega), ?_⟩, hxi⟩
    simp only [Bool.not_eq_true', Bool.eq_false_iff, ne_eq, hf.pinned_iff]
    omega
  · obtain ⟨i, hi, rfl⟩ := List.mem_map.1 hx
    obtain ⟨hi, hp⟩ := List.mem_filter.1 hi
    have hf := h.frame i (List.mem_range.1 hi)
    simp only [Bool.not_eq_true', Bool.eq_false_iff, ne_eq, hf.pinned_iff] at hp
    exact hf.free_iff.2 (by omega)

theorem PoolInv.free_length (h : PoolInv pool) : pool.free.length = pool.freeCount := by
  rw [BufferPool.free, List.length_take, h.freeList_length]
  exact Nat.min_eq_left h.freeCount_le

/-- On a consistent pool every frame is free or pinned, and not both. -/
theorem PoolInv.freeCount_add_pinnedCount (h : PoolInv pool) :
    pool.freeCount + pool.pinnedCount = pool.pages.length := by
  have hsplit := List.length_eq_countP_add_countP (fun i => (pool.page i).pinned) (List.range pool.pages.length)
  rw [← h.free_length, h.free_perm.length_eq, List.length_map, ← List.countP_eq_length_filter,
    BufferPool.pinnedCount]
  rw [List.length_range] at hsplit
  simp only [decide_not, Bool.decide_eq_true] at hsplit
  omega

theorem bufferPoolGetPage_eq_none (pool : BufferPool) (pageId : ℤ) :
    (bufferPoolGetPage pool pageId).1 = none ↔ pool.freeCount = 0 := by
  unfold bufferPoolGetPage; dsimp only; split_ifs <;> simp [*]

/-- `release_page` of the frame `get_page` has just returned puts the pool back as it
was, but for that frame's page id, `dirty` flag and count, now 0. -/
theorem PoolInv.getPage_releasePage (h : PoolInv pool) (hn : pool.pages.length ≤ 2 ^ 31) {pageId x : ℤ}
    (hx : (bufferPoolGetPage pool pageId).1 = some x) :
    bufferPoolReleasePage (bufferPoolGetPage pool pageId).2 x.toNat =
      pool.setPage x.toNat
        { pool.page x.toNat with pageId := pageId, dirty := false, pinned := false, refCount := 0 } := by
  rcases hk : pool.freeCount with _ | k
  · rw [(bufferPoolGetPage_eq_none pool pageId).2 hk] at hx; cases hx
  rw [h.getPage_eq hk] at hx ⊢
  obtain ⟨⟩ := hx
  have hfree := h.free_eq hk
  obtain ⟨hx0, hxn⟩ := h.free_lt _ (hfree ▸ List.mem_append_right _ (List.mem_singleton_self _))
  have hlt : k < pool.freeList.length := by have := h.freeCount_le; rw [h.freeList_length]; omega
  have hxp : (pool.freeList.getD k 0).toNat < pool.pages.length := by omega
  rw [bufferPoolReleasePage_of_eq (by simpa using hxp) (by rw [BufferPool.page_setPage_self (by simpa using hxp)]; rfl)
    (by simpa using hlt), BufferPool.page_setPage_self (by simpa using hxp), BufferPool.setPage_setPage,
    int32_natCast (by omega), Int.toNat_of_nonneg hx0]
  have hset : pool.freeList.set k (pool.freeList.getD k 0) = pool.freeList := by
    rw [List.getD_eq_getElem?_getD, List.getElem?_eq_getElem hlt, Option.getD_some]
    exact List.ext_getElem (List.length_set ..) fun j _ _ => by
      rw [List.getElem_set]; split_ifs with hj <;> simp [hj]
  simp only [BufferPool.setPage_freeList, BufferPool.setPage_freeCount, hset, ← hk]
  rfl

/-- `get_page` right after a release that freed frame `p` hands out `p` again, and puts
the pool back as it was, but for the frame's page id and `dirty` flag and for the free
list's cell just past the free frames. -/
theorem PoolInv.releasePage_getPage (h : PoolInv pool) (hn : pool.pages.length ≤ 2 ^ 31)
    (hp : p < pool.pages.length) (h1 : (pool.page p).refCount = 1) (pageId : ℤ) :
    bufferPoolGetPage (bufferPoolReleasePage pool p) pageId =
      (some (p : ℤ), { pool.setPage p { pool.page p with pageId := pageId, dirty := false } with
        freeList := pool.freeList.set pool.freeCount p }) := by
  have hc := h.freeCount_lt hp (by omega)
  have hpin : (pool.page p).pinned = true := (h.frame p hp).pinned_iff.2 (by omega)
  rw [bufferPoolReleasePage_of_eq hp (by rw [h1]; rfl) hc, int32_natCast (by omega), bufferPoolGetPage,
    if_neg (by simp)]
  simp only [BufferPool.setPage_freeList, BufferPool.setPage_freeCount, Nat.add_sub_cancel,
    List.getD_eq_getElem?_getD, List.getElem?_set_self hc, Option.getD_some, BufferPool.setPage_length]
  rw [if_pos ⟨Int.natCast_nonneg p, by exact_mod_cast hp⟩, Int.toNat_natCast, hpin, h1]
  simp [BufferPool.setPage]

end Inv

/-! ### Runs -/

section Run

variable {poolSize : ℕ} {pool : BufferPool}

/-- The pools reached from `buffer_pool_create(poolSize)` by `get_page` and by
`release_page` of a frame of the pool whose count is not `INT_MIN`. -/
inductive PoolReachable (poolSize : ℕ) : BufferPool → Prop
  | create : PoolReachable poolSize (bufferPoolCreate poolSize)
  | getPage {pool : BufferPool} (pageId : ℤ) :
      PoolReachable poolSize pool → PoolReachable poolSize (bufferPoolGetPage pool pageId).2
  | releasePage {pool : BufferPool} {p : ℕ} : PoolReachable poolSize pool → p < pool.pages.length →
      (pool.page p).refCount ≠ -2 ^ 31 → PoolReachable poolSize (bufferPoolReleasePage pool p)

theorem PoolReachable.length (h : PoolReachable poolSize pool) :
    pool.pages.length = poolSize / PAGE_SIZE := by
  induction h with
  | create => exact List.length_replicate ..
  | getPage _ _ ih => rw [bufferPoolGetPage_length, ih]
  | releasePage _ _ _ ih => rw [bufferPoolReleasePage_length, ih]

theorem PoolReachable.inv (hn : poolSize / PAGE_SIZE ≤ 2 ^ 31) (h : PoolReachable poolSize pool) :
    PoolInv pool := by
  induction h with
  | create => exact PoolInv.create _ hn
  | getPage pageId _ ih => exact (ih.getPage pageId).1
  | releasePage hr hp hmin ih => exact ih.releasePage (hr.length ▸ hn) hp hmin

/-- **The buffer pool's invariant.**  On every pool reached from `buffer_pool_create`
with at most `2^31` frames by `get_page` and by releases of frames of the pool whose
count is not `INT_MIN`: the free list has a cell per frame, `free_count` is at most the
number of frames, the free frames are distinct frames, a frame is free exactly when its
count is at most 0 and pinned exactly when it is positive, and nothing has been written
outside the arrays.  So `get_page` returns only a frame with no references, and a
release of any frame of the pool writes inside the arrays. -/
theorem bufferPool_inv (poolSize : ℕ) (hn : poolSize / PAGE_SIZE ≤ 2 ^ 31)
    (h : PoolReachable poolSize pool) :
    PoolInv pool ∧ pool.pages.length = poolSize / PAGE_SIZE ∧
      (∀ pageId x, (bufferPoolGetPage pool pageId).1 = some x →
        0 ≤ x ∧ x < pool.pages.length ∧ (pool.page x.toNat).refCount ≤ 0) ∧
      ∀ p < pool.pages.length, (bufferPoolReleasePage pool p).outOfBounds = false := by
  have hinv := h.inv hn
  exact ⟨hinv, h.length, fun pageId x hx => ((hinv.getPage pageId).2 x hx).2,
    fun _ hp => hinv.releasePage_inBounds hp⟩

theorem bufferPool_inv_two_frames :
    8192 / PAGE_SIZE ≤ 2 ^ 31 ∧ PoolReachable 8192 (bufferPoolGetPage (bufferPoolCreate 8192) 5).2 ∧
      (PoolInv (bufferPoolGetPage (bufferPoolCreate 8192) 5).2 ∧
        (bufferPoolGetPage (bufferPoolCreate 8192) 5).2.pages.length = 8192 / PAGE_SIZE ∧
        (∀ pageId x, (bufferPoolGetPage (bufferPoolGetPage (bufferPoolCreate 8192) 5).2 pageId).1 = some x →
          0 ≤ x ∧ x < (bufferPoolGetPage (bufferPoolCreate 8192) 5).2.pages.length ∧
            ((bufferPoolGetPage (bufferPoolCreate 8192) 5).2.page x.toNat).refCount ≤ 0) ∧
        ∀ p < (bufferPoolGetPage (bufferPoolCreate 8192) 5).2.pages.length,
          (bufferPoolReleasePage (bufferPoolGetPage (bufferPoolCreate 8192) 5).2 p).outOfBounds = false) :=
  ⟨by decide, .getPage 5 .create, bufferPool_inv 8192 (by decide) (.getPage 5 .create)⟩

/-- **No frame is lost.**  On every pool reached as in `bufferPool_inv`, each frame is
either on the free list or pinned: `free_count` plus the number of pinned frames is the
number of frames.  So `get_page` returns `NULL` exactly when every frame is pinned. -/
theorem bufferPool_pinnedCount (poolSize : ℕ) (hn : poolSize / PAGE_SIZE ≤ 2 ^ 31)
    (h : PoolReachable poolSize pool) (pageId : ℤ) :
    pool.freeCount + pool.pinnedCount = pool.pages.length ∧
      ((bufferPoolGetPage pool pageId).1 = none ↔ ∀ i < pool.pages.length, (pool.page i).pinned = true) := by
  have hc := (h.inv hn).freeCount_add_pinnedCount
  have hall : pool.pinnedCount = pool.pages.length ↔ ∀ i < pool.pages.length, (pool.page i).pinned = true := by
    have h' := @List.countP_eq_length _ (List.range pool.pages.length) fun i => (pool.page i).pinned
    rw [List.length_range] at h'
    rw [BufferPool.pinnedCount, h']
    simp only [List.mem_range]
  exact ⟨hc, (bufferPoolGetPage_eq_none pool pageId).trans (Iff.trans (by omega) hall)⟩

theorem bufferPool_pinnedCount_two_frames :
    8192 / PAGE_SIZE ≤ 2 ^ 31 ∧ PoolReachable 8192 (bufferPoolGetPage (bufferPoolCreate 8192) 5).2 ∧
      ((bufferPoolGetPage (bufferPoolCreate 8192) 5).2.freeCount +
          (bufferPoolGetPage (bufferPoolCreate 8192) 5).2.pinnedCount =
          (bufferPoolGetPage (bufferPoolCreate 8192) 5).2.pages.length ∧
        ((bufferPoolGetPage (bufferPoolGetPage (bufferPoolCreate 8192) 5).2 7).1 = none ↔
          ∀ i < (bufferPoolGetPage (bufferPoolCreate 8192) 5).2.pages.length,
            ((bufferPoolGetPage (bufferPoolCreate 8192) 5).2.page i).pinned = true)) :=
  ⟨by decide, .getPage 5 .create, bufferPool_pinnedCount 8192 (by decide) (.getPage 5 .create) 7⟩

/-- **`get_page` and `release_page` undo each other.**  On every pool reached as in
`bufferPool_inv`: releasing the frame `get_page` has just returned gives back the pool
as it was, but for that frame's page id, `dirty` flag and count (now 0); and after a
release that frees a frame, `get_page` hands out that frame and gives back the pool as
it was, but for the frame's page id and `dirty` flag and the free list's cell past the
free frames. -/
theorem bufferPool_getPage_releasePage (poolSize : ℕ) (hn : poolSize / PAGE_SIZE ≤ 2 ^ 31)
    (h : PoolReachable poolSize pool) (pageId : ℤ) :
    (∀ x, (bufferPoolGetPage pool pageId).1 = some x →
      bufferPoolReleasePage (bufferPoolGetPage pool pageId).2 x.toNat =
        pool.setPage x.toNat
          { pool.page x.toNat with pageId := pageId, dirty := false, pinned := false, refCount := 0 }) ∧
    ∀ p < pool.pages.length, (pool.page p).refCount = 1 →
      bufferPoolGetPage (bufferPoolReleasePage pool p) pageId =
        (some (p : ℤ), { pool.setPage p { pool.page p with pageId := pageId, dirty := false } with
          freeList := pool.freeList.set pool.freeCount p }) :=
  ⟨fun _ hx => (h.inv hn).getPage_releasePage (h.length ▸ hn) hx,
    fun _ hp h1 => (h.inv hn).releasePage_getPage (h.length ▸ hn) hp h1 pageId⟩

theorem bufferPool_getPage_releasePage_two_frames :
    8192 / PAGE_SIZE ≤ 2 ^ 31 ∧ PoolReachable 8192 (bufferPoolGetPage (bufferPoolCreate 8192) 5).2 ∧
      ((∀ x, (bufferPoolGetPage (bufferPoolGetPage (bufferPoolCreate 8192) 5).2 7).1 = some x →
        bufferPoolReleasePage (bufferPoolGetPage (bufferPoolGetPage (bufferPoolCreate 8192) 5).2 7).2 x.toNat =
          (bufferPoolGetPage (bufferPoolCreate 8192) 5).2.setPage x.toNat
            { (bufferPoolGetPage (bufferPoolCreate 8192) 5).2.page x.toNat with
              pageId := 7, dirty := false, pinned := false, refCount := 0 }) ∧
      ∀ p < (bufferPoolGetPage (bufferPoolCreate 8192) 5).2.pages.length,
        ((bufferPoolGetPage (bufferPoolCreate 8192) 5).2.page p).refCount = 1 →
        bufferPoolGetPage (bufferPoolReleasePage (bufferPoolGetPage (bufferPoolCreate 8192) 5).2 p) 7 =
          (some (p : ℤ), { (bufferPoolGetPage (bufferPoolCreate 8192) 5).2.setPage p
              { (bufferPoolGetPage (bufferPoolCreate 8192) 5).2.page p with pageId := 7, dirty := false } with
            freeList := (bufferPoolGetPage (bufferPoolCreate 8192) 5).2.freeList.set
              (bufferPoolGetPage (bufferPoolCreate 8192) 5).2.freeCount p })) :=
  ⟨by decide, .getPage 5 .create, bufferPool_getPage_releasePage 8192 (by decide) (.getPage 5 .create) 7⟩

/-- Writing a frame's own page back changes nothing. -/
theorem BufferPool.setPage_page (hp : p < pool.pages.length) : pool.setPage p (pool.page p) = pool := by
  have hset : pool.pages.set p (pool.page p) = pool.pages := List.ext_getElem? fun j => by
    rw [List.getElem?_set]
    split_ifs with hj
    · subst hj; simp [BufferPool.page, List.getD_eq_getElem?_getD, List.getElem?_eq_getElem hp]
    · rfl
  simp [BufferPool.setPage, hset]

/-- Releases of a free frame only lower its count, while it stays at least `INT_MIN`. -/
theorem releasePage_iterate {p : ℕ} (hp : p < pool.pages.length) (hr : (pool.page p).refCount ≤ 0) :
    ∀ j : ℕ, -2 ^ 31 ≤ (pool.page p).refCount - j →
      (bufferPoolReleasePage · p)^[j] pool =
        pool.setPage p { pool.page p with refCount := (pool.page p).refCount - j }
  | 0, _ => by simpa using (BufferPool.setPage_page hp).symm
  | j + 1, hj => by
    have hq : ((pool.setPage p { pool.page p with refCount := (pool.page p).refCount - j }).page p).refCount =
        (pool.page p).refCount - j := by rw [BufferPool.page_setPage_self hp]
    have hdec : int32 ((pool.page p).refCount - j - 1) = (pool.page p).refCount - (j + 1 : ℕ) := by
      rw [int32_of_lt (by omega) (by omega)]; push_cast; omega
    rw [Function.iterate_succ_apply', releasePage_iterate hp hr j (by omega),
      bufferPoolReleasePage_of_ne (by rw [hq, hdec]; omega), hq, hdec, BufferPool.setPage_setPage,
      BufferPool.page_setPage_self hp]

/-- **A frame released while free wraps.**  On a pool of one frame, `2^31 + 1` releases
of the free frame take its count through `INT_MIN` to `INT_MAX`: the frame stays on the
free list with a positive count, and `get_page` hands it out. -/
theorem bufferPool_release_wrap :
    ((bufferPoolReleasePage · 0)^[2 ^ 31 + 1] (bufferPoolCreate PAGE_SIZE)).page 0 =
        { BufferPage.zero with refCount := 2 ^ 31 - 1 } ∧
      (bufferPoolGetPage ((bufferPoolReleasePage · 0)^[2 ^ 31 + 1] (bufferPoolCreate PAGE_SIZE)) 7).1 =
        some 0 := by
  rw [Function.iterate_succ_apply', releasePage_iterate (by decide) (by decide) _ (by decide)]
  decide

end Run

end Storage
end MantisDB
