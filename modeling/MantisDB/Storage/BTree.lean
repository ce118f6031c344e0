import Mathlib.Data.List.Basic
import Mathlib.Logic.Function.Basic

/-!
# The B-tree and the storage engine's key-value calls

`btree_create`, `btree_insert`, `btree_search`, `btree_delete` (`src/cgo/btree.c`) and
`storage_engine_init`, `storage_engine_put`, `storage_engine_get`,
`storage_engine_delete` (`src/cgo/storage_engine.c`).

The tree never grows past its root.  The root is modelled cell by cell (`BTreeNode`) and
the three calls loop over the cells as the C code does; the first `num_keys` slots are
the entries (`BTree.slots`).  On the entries, `btree_insert` appends one while fewer
than `MAX_KEYS` are in use (`btreeInsert_of_lt`), `btree_search` returns the value of
the first entry with the key (`btreeSearch_slots`), and `btree_delete` removes that
entry, the shift loop keeping the others in order (`btreeDelete_of_mem`).

A second put of a key does not replace the first.  So the engine is not a map but, for
each key, a queue of the values of its puts, oldest first: `get` reads the head and
`delete` pops it (`KeyQueues`).
The slots denote those queues (`BTree.queues`), every call of the engine whose strings
fit their cells is the call of the queues on them (`storageEngine_call`), and so is
every run of such calls (`storageEngine_run`), which never writes past a cell.

Keys and values are C strings, their bytes without the NUL, and `NULL` is `none`;
`strcmp` is equality on them.  `strcpy` into the 256- and 1024-byte cells is defined
only for shorter strings: a longer one leaves in the cell the bytes that land there
(`strcpyCell`) and the root records the overrun (`BTreeNode.overrun`).
-/

namespace MantisDB
namespace Storage

/-- `MAX_KEYS`. -/
def MAX_KEYS : ℕ := 255

/-- What `strcpy` leaves in a `char[width]` cell from the C string `s`: all of `s` when `s`
and its NUL fit.  A longer `s` runs past the cell, which C leaves undefined; the model
keeps the `width` bytes that land in the cell. -/
def strcpyCell (width : ℕ) (s : List Char) : List Char := s.take width

theorem strcpyCell_of_lt {width : ℕ} {s : List Char} (h : s.length < width) : strcpyCell width s = s :=
  List.take_of_length_le h.le

/-- `btree_node_t` as the root uses it: a cell per slot in `keys` and in `values`, each
holding the C string copied into it, and `num_keys` slots in use; `overrun` records
that a `strcpy` has run past its cell.  `children` and `is_leaf` are read by no call:
the root is the only node. -/
structure BTreeNode where
  keys : List (List Char)
  values : List (List Char)
  numKeys : ℕ
  overrun : Bool
  keys_length : keys.length = MAX_KEYS
  values_length : values.length = MAX_KEYS
  numKeys_le : numKeys ≤ MAX_KEYS

namespace BTreeNode

/-- `keys[i]` and `values[i]`. -/
def slot (node : BTreeNode) (i : ℕ) : List Char × List Char :=
  (node.keys.getD i [], node.values.getD i [])

/-- `strcpy(keys[j], keys[j + 1]); strcpy(values[j], values[j + 1]);`: the cells are of one
width, so a string that fits one fits the other. -/
def copyDown (node : BTreeNode) (j : ℕ) : BTreeNode :=
  { node with
    keys := node.keys.set j (node.slot (j + 1)).1
    values := node.values.set j (node.slot (j + 1)).2
    keys_length := by rw [List.length_set, node.keys_length]
    values_length := by rw [List.length_set, node.values_length] }

end BTreeNode

/-- `btree_node_create`: `calloc` leaves every cell the empty string. -/
def btreeNodeCreate : BTreeNode :=
  ⟨List.replicate MAX_KEYS [], List.replicate MAX_KEYS [], 0, false, List.length_replicate ..,
    List.length_replicate .., Nat.zero_le _⟩

/-- `btree_t`: its root.  `filename` is read by no call. -/
structure BTree where
  root : BTreeNode

/-- `btree_create`, on successful allocations: a root with no slot in use. -/
def btreeCreate : BTree := ⟨btreeNodeCreate⟩

/-- `btree_insert`: a `NULL` key or value fails; otherwise the key and value are copied
into slot `num_keys` of the root, a `char[256]` and a `char[1024]` cell, while there is
room; the root full, the call fails. -/
def btreeInsert (tree : BTree) (key value : Option (List Char)) : ℤ × BTree :=
  match key, value with
  | some key, some value =>
    let root := tree.root
    if h : root.numKeys < MAX_KEYS then
      (0, ⟨{ root with
        keys := root.keys.set root.numKeys (strcpyCell 256 key)
        values := root.values.set root.numKeys (strcpyCell 1024 value)
        numKeys := root.numKeys + 1
        overrun := root.overrun || decide (256 ≤ key.length) || decide (1024 ≤ value.length)
        keys_length := by rw [List.length_set, root.keys_length]
        values_length := by rw [List.length_set, root.values_length]
        numKeys_le := h }⟩)
    else (-1, tree)
  | _, _ => (-1, tree)

/-- `btree_search`, called from `storage_engine_get` past its `NULL` check:
`for (i = 0; i < num_keys; i++)`, a copy of `values[i]` at the
first `keys[i]` equal to `key`. -/
def btreeSearch (tree : BTree) (key : List Char) : Option (List Char) :=
  go 0 tree.root.numKeys
where
  go : ℕ → ℕ → Option (List Char)
  | _, 0 => none
  | i, fuel + 1 =>
    if i < tree.root.numKeys then
      if (tree.root.slot i).1 = key then some (tree.root.slot i).2 else go (i + 1) fuel
    else none

/-- `btree_delete`, called from `storage_engine_delete` past its `NULL` check: the first
`i < num_keys` with `keys[i]` equal to `key`; the slots
after it are copied down one, and `num_keys` goes down by one. -/
def btreeDelete (tree : BTree) (key : List Char) : ℤ × BTree :=
  go 0 tree.root.numKeys
where
  go : ℕ → ℕ → ℤ × BTree
  | _, 0 => (-1, tree)
  | i, fuel + 1 =>
    if i < tree.root.numKeys then
      if (tree.root.slot i).1 = key then
        let root := shift i tree.root.numKeys tree.root
        (0, ⟨{ root with numKeys := root.numKeys - 1, numKeys_le := (Nat.sub_le _ _).trans root.numKeys_le }⟩)
      else go (i + 1) fuel
    else (-1, tree)
  /-- `for (j = i; j < num_keys - 1; j++)`, copying slot `j + 1` to slot `j`. -/
  shift : ℕ → ℕ → BTreeNode → BTreeNode
  | _, 0, node => node
  | j, fuel + 1, node => if j < node.numKeys - 1 then shift (j + 1) fuel (node.copyDown j) else node

/-- The entries of the tree: the key and value of each slot in use, in order. -/
def BTree.slots (tree : BTree) : List (List Char × List Char) :=
  (List.range tree.root.numKeys).map tree.root.slot

/-- `storage_engine_t`: the B-tree is what `put`, `get` and `delete` use; the buffer
pool and `data_dir` are read by none of them. -/
structure StorageEngine where
  btree : BTree

/-- `storage_engine_init`, on successful allocations. -/
def storageEngineInit : StorageEngine := ⟨btreeCreate⟩

/-- `storage_engine_put`: a `NULL` key or value returns -1. -/
def storageEnginePut (engine : StorageEngine) (key value : Option (List Char)) : ℤ × StorageEngine :=
  if key.isNone || value.isNone then (-1, engine)
  else
    let r := btreeInsert engine.btree key value
    (r.1, ⟨r.2⟩)

/-- `storage_engine_get`: a `NULL` key returns `NULL`. -/
def storageEngineGet (engine : StorageEngine) (key : Option (List Char)) : Option (List Char) :=
  match key with
  | none => none
  | some key => btreeSearch engine.btree key

/-- `storage_engine_delete`: a `NULL` key returns -1. -/
def storageEngineDelete (engine : StorageEngine) (key : Option (List Char)) : ℤ × StorageEngine :=
  match key with
  | none => (-1, engine)
  | some key =>
    let r := btreeDelete engine.btree key
    (r.1, ⟨r.2⟩)

/-! ### Calls and runs -/

/-- A call of the engine's key-value interface; `none` is a `NULL` argument. -/
inductive EngineOp
  | put (key value : Option (List Char))
  | get (key : Option (List Char))
  | delete (key : Option (List Char))
  deriving DecidableEq, Repr

/-- The strings a call copies fit their cells: the key of a put has fewer than 256 bytes
and its value fewer than 1024, so `strcpy` writes each with its NUL inside the slot. -/
def EngineOp.Fits : EngineOp → Prop
  | .put (some key) (some value) => key.length < 256 ∧ value.length < 1024
  | _ => True

instance : DecidablePred EngineOp.Fits
  | .put (some key) (some value) => inferInstanceAs (Decidable (key.length < 256 ∧ value.length < 1024))
  | .put none _ | .put (some _) none | .get _ | .delete _ => isTrue trivial

/-- What a call returns: the `int` of `put` and `delete`, or the copy `get` returns
(`none` for `NULL`). -/
inductive EngineReply
  | status (code : ℤ)
  | value (v : Option (List Char))
  deriving DecidableEq, Repr

/-- One call on the engine. -/
def StorageEngine.call (engine : StorageEngine) : EngineOp → EngineReply × StorageEngine
  | .put key value => let r := storageEnginePut engine key value; (.status r.1, r.2)
  | .get key => (.value (storageEngineGet engine key), engine)
  | .delete key => let r := storageEngineDelete engine key; (.status r.1, r.2)

/-- The replies of a sequence of calls, each on the engine the one before left. -/
def StorageEngine.run (engine : StorageEngine) : List EngineOp → List EngineReply
  | [] => []
  | op :: ops => (engine.call op).1 :: (engine.call op).2.run ops

/-- The engine a sequence of calls leaves. -/
def StorageEngine.after (engine : StorageEngine) : List EngineOp → StorageEngine
  | [] => engine
  | op :: ops => (engine.call op).2.after ops

/-! ### What the engine is: a queue of values per key -/

/-- For each key, the values of its puts that no delete has taken, oldest first, and
how many values there are in all. -/
structure KeyQueues where
  queue : List Char → List (List Char)
  size : ℕ

namespace KeyQueues

/-- No values. -/
def empty : KeyQueues := ⟨fun _ => [], 0⟩

/-- A put joins the back of its key's queue while fewer than `MAX_KEYS` values are
held; a get reads the front; a delete takes the front.  A `NULL` argument fails and
changes nothing. -/
def call (s : KeyQueues) : EngineOp → EngineReply × KeyQueues
  | .put (some key) (some value) =>
    if s.size < MAX_KEYS then
      (.status 0, ⟨Function.update s.queue key (s.queue key ++ [value]), s.size + 1⟩)
    else (.status (-1), s)
  | .put _ _ => (.status (-1), s)
  | .get none => (.value none, s)
  | .get (some key) => (.value (s.queue key).head?, s)
  | .delete none => (.status (-1), s)
  | .delete (some key) =>
    match s.queue key with
    | [] => (.status (-1), s)
    | _ :: q => (.status 0, ⟨Function.update s.queue key q, s.size - 1⟩)

/-- The replies of a sequence of calls. -/
def run (s : KeyQueues) : List EngineOp → List EngineReply
  | [] => []
  | op :: ops => (s.call op).1 :: (s.call op).2.run ops

end KeyQueues

/-! ### The loops, on the entries -/

section Entries

variable {tree : BTree} {key value : List Char}

@[simp] theorem BTree.slots_length (tree : BTree) : tree.slots.length = tree.root.numKeys := by
  simp [BTree.slots]

theorem BTree.getElem_slots (tree : BTree) {i : ℕ} (h : i < tree.slots.length) :
    tree.slots[i] = tree.root.slot i := by
  simp [BTree.slots]

theorem BTreeNode.slot_copyDown (node : BTreeNode) (j t : ℕ) :
    (node.copyDown j).slot t = if t = j then node.slot (j + 1) else node.slot t := by
  simp only [BTreeNode.slot, BTreeNode.copyDown, List.getD_eq_getElem?_getD, List.getElem?_set,
    node.keys_length, node.values_length]
  by_cases ht : t = j
  · subst ht
    by_cases hj : t < MAX_KEYS
    · simp [hj]
    · have hk : node.keys[t + 1]? = none := List.getElem?_eq_none (by rw [node.keys_length]; omega)
      have hv : node.values[t + 1]? = none := List.getElem?_eq_none (by rw [node.values_length]; omega)
      simp [hj, hk, hv]
  · simp [Ne.symm ht, ht]

/-- The shift loop from `j` copies each slot `t` with `j ≤ t < num_keys - 1` from slot
`t + 1` and leaves the others. -/
theorem btreeDelete_shift : ∀ (fuel j : ℕ) (node : BTreeNode), node.numKeys - 1 ≤ j + fuel →
    (btreeDelete.shift j fuel node).numKeys = node.numKeys ∧
    ∀ t, (btreeDelete.shift j fuel node).slot t =
      if j ≤ t ∧ t < node.numKeys - 1 then node.slot (t + 1) else node.slot t
  | 0, j, node, h => ⟨rfl, fun t => by rw [if_neg (by omega)]; rfl⟩
  | fuel + 1, j, node, h => by
    rw [btreeDelete.shift]
    split_ifs with hj
    · obtain ⟨h₁, h₂⟩ := btreeDelete_shift fuel (j + 1) (node.copyDown j) (by
        show node.numKeys - 1 ≤ _; omega)
      refine ⟨h₁, fun t => ?_⟩
      rw [h₂, BTreeNode.slot_copyDown, BTreeNode.slot_copyDown]
      show (if j + 1 ≤ t ∧ t < node.numKeys - 1 then _ else _) = _
      split_ifs <;> first | rfl | omega | (subst_vars; rfl)
    · exact ⟨rfl, fun t => by rw [if_neg (by omega)]⟩

/-- Where no slot from `i` on has the key, the find loop returns -1. -/
theorem btreeDelete_go_none : ∀ (fuel i : ℕ),
    (∀ t, i ≤ t → t < tree.root.numKeys → (tree.root.slot t).1 ≠ key) →
      btreeDelete.go tree key i fuel = (-1, tree)
  | 0, _, _ => rfl
  | fuel + 1, i, h => by
    rw [btreeDelete.go]
    split_ifs with hi hk
    · exact absurd hk (h i le_rfl hi)
    · exact btreeDelete_go_none fuel (i + 1) fun t ht => h t (by omega)
    · rfl

/-- From `i`, the find loop stops at the first slot `t₀` with the key and shifts the
slots after it down. -/
theorem btreeDelete_go_some {t₀ : ℕ} (ht₀ : t₀ < tree.root.numKeys) (hk : (tree.root.slot t₀).1 = key) :
    ∀ (fuel i : ℕ), i ≤ t₀ → t₀ < i + fuel → (∀ t, i ≤ t → t < t₀ → (tree.root.slot t).1 ≠ key) →
      (btreeDelete.go tree key i fuel).1 = 0 ∧
      (btreeDelete.go tree key i fuel).2.root.numKeys = tree.root.numKeys - 1 ∧
      ∀ t, (btreeDelete.go tree key i fuel).2.root.slot t =
        if t₀ ≤ t ∧ t < tree.root.numKeys - 1 then tree.root.slot (t + 1) else tree.root.slot t
  | 0, _, hi, hf, _ => absurd hf (by omega)
  | fuel + 1, i, hi, hf, h => by
    rw [btreeDelete.go, if_pos (by omega)]
    split_ifs with hki
    · obtain rfl : i = t₀ := by
        by_contra hne; exact h i le_rfl (by omega) hki
      obtain ⟨h₁, h₂⟩ := btreeDelete_shift tree.root.numKeys i tree.root (by omega)
      exact ⟨rfl, by show _ - 1 = _; rw [h₁], h₂⟩
    · have hne : i ≠ t₀ := fun he => hki (he ▸ hk)
      exact btreeDelete_go_some ht₀ hk fuel (i + 1) (by omega) (by omega) fun t ht => h t (by omega)

/-- The entries after removing the entry of slot `t₀`. -/
theorem slots_of_shift {t₀ : ℕ} (ht₀ : t₀ < tree.root.numKeys) {tree' : BTree}
    (hn : tree'.root.numKeys = tree.root.numKeys - 1)
    (hs : ∀ t, tree'.root.slot t =
      if t₀ ≤ t ∧ t < tree.root.numKeys - 1 then tree.root.slot (t + 1) else tree.root.slot t) :
    tree'.slots = tree.slots.take t₀ ++ tree.slots.drop (t₀ + 1) := by
  apply List.ext_getElem (by simp [hn]; omega)
  intro t h₁ h₂
  rw [BTree.getElem_slots, hs, List.getElem_append]
  simp only [BTree.slots_length, hn] at h₁
  split_ifs with h₃ h₄ h₄ <;>
    simp only [List.length_take, BTree.slots_length, Nat.min_eq_left ht₀.le] at h₄
  · omega
  · rw [List.getElem_drop, BTree.getElem_slots]
    congr 1; simp only [List.length_take, BTree.slots_length, Nat.min_eq_left ht₀.le]; omega
  · rw [List.getElem_take, BTree.getElem_slots]
  · omega

/-- **`btree_delete` without the key** returns -1 and leaves the tree. -/
theorem btreeDelete_of_not_mem (h : ∀ e ∈ tree.slots, e.1 ≠ key) : btreeDelete tree key = (-1, tree) :=
  btreeDelete_go_none _ 0 fun t _ ht => h _ (List.mem_map.2 ⟨t, List.mem_range.2 ht, rfl⟩)

/-- **`btree_delete` with the key** returns 0, removes the first entry with the key and
keeps the others in order, with one slot less in use. -/
theorem btreeDelete_of_mem (h : ∃ e ∈ tree.slots, e.1 = key) :
    (btreeDelete tree key).1 = 0 ∧
      (btreeDelete tree key).2.slots = tree.slots.eraseP (fun e => e.1 = key) ∧
      (btreeDelete tree key).2.root.numKeys = tree.root.numKeys - 1 := by
  obtain ⟨e, he, hek⟩ := h
  obtain ⟨a, l₁, l₂, h₁, ha, hsplit, herase⟩ :=
    @List.exists_of_eraseP _ (fun e => decide (e.1 = key)) _ _ he (by simpa using hek)
  have hlen : tree.slots.length = l₁.length + 1 + l₂.length := by simp [hsplit]; omega
  have hlt : l₁.length < tree.root.numKeys := by rw [← BTree.slots_length]; omega
  have hslot : ∀ t (ht : t < l₁.length), tree.root.slot t = l₁[t] := fun t ht => by
    rw [← BTree.getElem_slots tree (by omega)]; simp only [hsplit, List.getElem_append_left ht]
  have ha' : tree.root.slot l₁.length = a := by
    rw [← BTree.getElem_slots tree (by omega)]; simp [hsplit, List.getElem_append_right]
  obtain ⟨h₁', h₂', h₃'⟩ := btreeDelete_go_some hlt (by simpa [ha'] using ha) tree.root.numKeys 0 (Nat.zero_le _)
    (by omega) fun t _ ht => by rw [hslot t ht]; simpa using h₁ _ (List.getElem_mem _)
  refine ⟨h₁', ?_, h₂'⟩
  rw [btreeDelete, slots_of_shift hlt h₂' h₃', herase, hsplit]
  simp

/-- The find loop of `btree_search` from `i` returns the value of the first slot from `i`
on with the key. -/
theorem btreeSearch_go : ∀ (fuel i : ℕ), tree.root.numKeys ≤ i + fuel →
    btreeSearch.go tree key i fuel = ((tree.slots.drop i).find? fun s => s.1 = key).map Prod.snd
  | 0, i, h => by rw [List.drop_of_length_le (by simpa using h)]; rfl
  | fuel + 1, i, h => by
    rw [btreeSearch.go]
    split_ifs with hi hk
    · rw [List.drop_eq_getElem_cons (by simpa using hi), BTree.getElem_slots,
        List.find?_cons_of_pos _ (by simpa using hk)]
      rfl
    · rw [List.drop_eq_getElem_cons (by simpa using hi), BTree.getElem_slots,
        List.find?_cons_of_neg _ (by simpa using hk), btreeSearch_go fuel (i + 1) (by omega)]
    · rw [List.drop_of_length_le (by simp; omega)]; rfl

/-- **`btree_search`** returns the value of the first entry with the key. -/
theorem btreeSearch_slots (tree : BTree) (key : List Char) :
    btreeSearch tree key = (tree.slots.find? fun s => s.1 = key).map Prod.snd :=
  btreeSearch_go _ 0 (Nat.le_add_left _ _)

/-- **`btree_insert` with room** returns 0 and appends the entry, of each string what lands
in its cell; the root records an overrun when a string does not fit its cell. -/
theorem btreeInsert_of_lt (h : tree.root.numKeys < MAX_KEYS) :
    (btreeInsert tree (some key) (some value)).1 = 0 ∧
      (btreeInsert tree (some key) (some value)).2.slots =
        tree.slots ++ [(strcpyCell 256 key, strcpyCell 1024 value)] ∧
      (btreeInsert tree (some key) (some value)).2.root.overrun =
        (tree.root.overrun || decide (256 ≤ key.length) || decide (1024 ≤ value.length)) := by
  rw [btreeInsert, dif_pos h]
  refine ⟨rfl, ?_, rfl⟩
  simp only [BTree.slots, List.range_succ, List.map_append, List.map_singleton]
  congr 1
  · refine List.map_congr_left fun t ht => ?_
    have hne : tree.root.numKeys ≠ t := (List.mem_range.1 ht).ne'
    simp [BTreeNode.slot, List.getD_eq_getElem?_getD, List.getElem?_set, hne]
  · simp [BTreeNode.slot, List.getD_eq_getElem?_getD, tree.root.keys_length,
      tree.root.values_length, h]

/-- **`btree_insert` into a full root** returns -1 and leaves the tree. -/
theorem btreeInsert_of_full (h : ¬ tree.root.numKeys < MAX_KEYS) :
    btreeInsert tree (some key) (some value) = (-1, tree) := by
  rw [btreeInsert, dif_neg h]

theorem btreeDelete_shift_overrun : ∀ (fuel j : ℕ) (node : BTreeNode),
    (btreeDelete.shift j fuel node).overrun = node.overrun
  | 0, _, _ => rfl
  | fuel + 1, j, node => by
    rw [btreeDelete.shift]
    split_ifs
    · exact btreeDelete_shift_overrun fuel (j + 1) _
    · rfl

theorem btreeDelete_go_overrun : ∀ (fuel i : ℕ), (btreeDelete.go tree key i fuel).2.root.overrun = tree.root.overrun
  | 0, _ => rfl
  | fuel + 1, i => by
    rw [btreeDelete.go]
    split_ifs
    · exact btreeDelete_shift_overrun _ _ _
    · exact btreeDelete_go_overrun fuel (i + 1)
    · rfl

/-- `btree_delete` copies cells to cells of their width: it overruns none. -/
theorem btreeDelete_overrun (tree : BTree) (key : List Char) :
    (btreeDelete tree key).2.root.overrun = tree.root.overrun :=
  btreeDelete_go_overrun _ 0

end Entries

/-- **`btree_delete`** removes the first entry with the key and keeps every other entry, in
order, with one slot less in use, and returns 0; when no entry has the key it returns -1
and leaves the tree as it was. -/
theorem btreeDelete_entries (tree : BTree) (key : List Char) :
    (btreeDelete tree key).2.slots = tree.slots.eraseP (fun e => e.1 = key) ∧
      if ∃ e ∈ tree.slots, e.1 = key then
        (btreeDelete tree key).1 = 0 ∧ (btreeDelete tree key).2.root.numKeys = tree.root.numKeys - 1
      else btreeDelete tree key = (-1, tree) := by
  split_ifs with h
  · obtain ⟨h₁, h₂, h₃⟩ := btreeDelete_of_mem h
    exact ⟨h₂, h₁, h₃⟩
  · have h' : ∀ e ∈ tree.slots, e.1 ≠ key := fun e he hek => h ⟨e, he, hek⟩
    rw [btreeDelete_of_not_mem h', List.eraseP_of_forall_not (by simpa using h')]
    exact ⟨rfl, rfl⟩

/-! ### The slots denote the queues -/

/-- The queue of `key`: the values of the slots with that key, in slot order. -/
def BTree.queues (tree : BTree) : KeyQueues :=
  ⟨fun key => (tree.slots.filter fun s => s.1 = key).map Prod.snd, tree.slots.length⟩

section Refinement

variable {tree : BTree} {key value : List Char}

theorem btreeSearch_eq (tree : BTree) (key : List Char) :
    btreeSearch tree key = (tree.queues.queue key).head? := by
  rw [btreeSearch_slots, BTree.queues, List.head?_map, List.filter_head?]

/-- A put whose strings fit their cells joins the back of its key's queue and overruns
no cell. -/
theorem btreeInsert_queues (h : tree.slots.length < MAX_KEYS) (hk : key.length < 256) (hv : value.length < 1024) :
    (btreeInsert tree (some key) (some value)).1 = 0 ∧
      (btreeInsert tree (some key) (some value)).2.queues =
        ⟨Function.update tree.queues.queue key (tree.queues.queue key ++ [value]),
          tree.queues.size + 1⟩ ∧
      (btreeInsert tree (some key) (some value)).2.root.overrun = tree.root.overrun := by
  obtain ⟨h₁, h₂, h₃⟩ := @btreeInsert_of_lt _ key value (by simpa using h)
  rw [strcpyCell_of_lt hk, strcpyCell_of_lt hv] at h₂
  refine ⟨h₁, ?_, by simp [h₃, Nat.not_le.2 hk, Nat.not_le.2 hv]⟩
  simp only [BTree.queues, h₂, List.filter_append, List.map_append, List.length_append,
    List.length_singleton, KeyQueues.mk.injEq, and_true]
  funext k
  by_cases hk : k = key
  · subst hk; simp
  · simp [Function.update_noteq hk, Ne.symm hk]

/-- Removing the first slot of `key` takes the front of its queue and leaves the other
queues. -/
theorem queue_eraseP (l : List (List Char × List Char)) (key k : List Char) :
    ((l.eraseP fun s => s.1 = key).filter fun s => s.1 = k).map Prod.snd =
      if k = key then (((l.filter fun s => s.1 = key).map Prod.snd).tail)
      else (l.filter fun s => s.1 = k).map Prod.snd := by
  induction l with
  | nil => split <;> rfl
  | cons s l ih =>
    by_cases hs : s.1 = key
    · rw [List.eraseP_cons_of_pos (by simpa using hs)]
      split_ifs with hk
      · subst hk; simp [hs]
      · simp [hs, Ne.symm hk]
    · rw [List.eraseP_cons_of_neg (by simpa using hs)]
      split_ifs at ih ⊢ with hk
      · subst hk; simp [hs, ih]
      · by_cases hsk : s.1 = k <;> simp [hsk, ih]

theorem btreeDelete_of_nil (h : tree.queues.queue key = []) : btreeDelete tree key = (-1, tree) := by
  refine btreeDelete_of_not_mem fun e he hek => ?_
  have : e.2 ∈ tree.queues.queue key :=
    List.mem_map_of_mem _ (List.mem_filter.2 ⟨he, by simpa using hek⟩)
  rw [h] at this
  exact List.not_mem_nil _ this

theorem btreeDelete_of_cons {v : List Char} {q : List (List Char)} (h : tree.queues.queue key = v :: q) :
    (btreeDelete tree key).1 = 0 ∧
      (btreeDelete tree key).2.queues = ⟨Function.update tree.queues.queue key q, tree.queues.size - 1⟩ := by
  obtain ⟨e, he, hek⟩ : ∃ e ∈ tree.slots, e.1 = key := by
    obtain ⟨e, he, -⟩ := List.mem_map.1 (h ▸ List.mem_cons_self v q : v ∈ tree.queues.queue key)
    exact ⟨e, (List.mem_filter.1 he).1, by simpa using (List.mem_filter.1 he).2⟩
  obtain ⟨h₁, h₂, -⟩ := btreeDelete_of_mem ⟨e, he, hek⟩
  refine ⟨h₁, ?_⟩
  simp only [BTree.queues, h₂, KeyQueues.mk.injEq]
  refine ⟨funext fun k => ?_, List.length_eraseP_of_mem he (by simpa using hek)⟩
  rw [queue_eraseP]
  split_ifs with hk
  · subst hk
    rw [Function.update_same, show (List.filter (fun s => decide (s.1 = k)) tree.slots).map Prod.snd = v :: q
      from h]
    rfl
  · rw [Function.update_noteq hk]

/-- **One call of the engine whose strings fit their cells is the call of the queues
its slots denote**: the same reply, the slots after it denote the queues after it, and
it overruns no cell. -/
theorem storageEngine_call (engine : StorageEngine) {op : EngineOp} (h : op.Fits) :
    (engine.call op).1 = (engine.btree.queues.call op).1 ∧
      (engine.call op).2.btree.queues = (engine.btree.queues.call op).2 ∧
      (engine.call op).2.btree.root.overrun = engine.btree.root.overrun := by
  have hsize : engine.btree.queues.size = engine.btree.slots.length := rfl
  cases op with
  | put key value =>
    cases key with
    | none => exact ⟨rfl, rfl, rfl⟩
    | some key =>
      cases value with
      | none => exact ⟨rfl, rfl, rfl⟩
      | some value =>
        by_cases hr : engine.btree.slots.length < MAX_KEYS
        · obtain ⟨h1, h2, h3⟩ := btreeInsert_queues hr h.1 h.2
          simp only [StorageEngine.call, storageEnginePut, KeyQueues.call, Option.isNone_some,
            Bool.or_false, Bool.false_eq_true, ite_false, h1, h2, h3, hsize, if_pos hr, and_self]
        · simp only [StorageEngine.call, storageEnginePut, KeyQueues.call, Option.isNone_some,
            Bool.or_false, Bool.false_eq_true, ite_false, @btreeInsert_of_full _ key value (by simpa using hr), hsize, if_neg hr, and_self]
  | get key =>
    cases key with
    | none => exact ⟨rfl, rfl, rfl⟩
    | some key => exact ⟨by rw [StorageEngine.call, KeyQueues.call, storageEngineGet, btreeSearch_eq], rfl, rfl⟩
  | delete key =>
    cases key with
    | none => exact ⟨rfl, rfl, rfl⟩
    | some key =>
      cases hq : engine.btree.queues.queue key with
      | nil =>
        simp only [StorageEngine.call, storageEngineDelete, KeyQueues.call, hq, btreeDelete_of_nil hq,
          and_self]
      | cons v q =>
        obtain ⟨h1, h2⟩ := btreeDelete_of_cons hq
        simp only [StorageEngine.call, storageEngineDelete, KeyQueues.call, hq, h1, h2, btreeDelete_overrun,
          and_self]

/-- Every run of calls whose strings fit their cells replies as the queues the slots
denote, and overruns no cell. -/
theorem storageEngine_run (engine : StorageEngine) {ops : List EngineOp} (h : ∀ op ∈ ops, op.Fits) :
    engine.run ops = engine.btree.queues.run ops ∧
      (engine.after ops).btree.root.overrun = engine.btree.root.overrun := by
  induction ops generalizing engine with
  | nil => exact ⟨rfl, rfl⟩
  | cons op ops ih =>
    obtain ⟨h1, h2, h3⟩ := storageEngine_call engine (h op (List.mem_cons_self _ _))
    obtain ⟨ih1, ih2⟩ := ih (engine.call op).2 fun o ho => h o (List.mem_cons_of_mem _ ho)
    exact ⟨by rw [StorageEngine.run, KeyQueues.run, ih1, h1, h2], by rw [StorageEngine.after, ih2, h3]⟩

end Refinement

/-- **The storage engine is a queue of values per key.**  For every sequence of calls
from `storage_engine_init` whose puts copy keys of fewer than 256 bytes and values of
fewer than 1024, every reply is the reply of `KeyQueues` from no values, and no
`strcpy` runs past its cell: `get` of a key returns the value of the oldest put of that
key that returned 0 and has not been taken by a delete of it that returned 0, and
`NULL` when there is none or the key is `NULL`; a delete returns 0 exactly when there is
such a put, and takes it; a put returns -1 exactly when a key or value is `NULL` or
`MAX_KEYS` values are held; and a call that returns -1 changes nothing. -/
theorem storageEngineInit_run (ops : List EngineOp) (h : ∀ op ∈ ops, op.Fits) :
    storageEngineInit.run ops = KeyQueues.empty.run ops ∧
      (storageEngineInit.after ops).btree.root.overrun = false :=
  storageEngine_run storageEngineInit h

theorem storageEngineInit_run_null :
    (∀ op ∈ [EngineOp.put (some ['k']) (some ['a']), .put none (some ['b']), .get (some ['k']), .delete none],
      op.Fits) ∧
    storageEngineInit.run [.put (some ['k']) (some ['a']), .put none (some ['b']), .get (some ['k']), .delete none] =
      KeyQueues.empty.run [.put (some ['k']) (some ['a']), .put none (some ['b']), .get (some ['k']), .delete none] ∧
    (storageEngineInit.after
      [.put (some ['k']) (some ['a']), .put none (some ['b']), .get (some ['k']), .delete none]).btree.root.overrun =
      false :=
  ⟨by decide, storageEngineInit_run _ (by decide)⟩

/-- Two puts of one key: `get` returns the first value, not the most recent one, and
after a delete that returned 0 it returns the second. -/
theorem storageEngine_put_put_get :
    storageEngineInit.run [.put (some ['k']) (some ['a']), .put (some ['k']) (some ['b']), .get (some ['k']),
      .delete (some ['k']), .get (some ['k'])] =
      [.status 0, .status 0, .value (some ['a']), .status 0, .value (some ['b'])] := by
  decide

end Storage
end MantisDB
