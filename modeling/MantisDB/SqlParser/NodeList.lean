import MantisDB.SqlParser.Parser

/-!
# The node lists

`make_list`, `list_append`, `list_prepend`, `list_nth` and `list_length`
(`src/cgo/sql_parser.c`, lines 777-813).  A `List` is an `int` `length` and a block
`elements` of node pointers, which `list_append` and `list_prepend` `realloc` to
`length + 1` cells before writing the new node.

| function | block after the call | `length` |
| --- | --- | --- |
| `make_list` | none | `0` |
| `list_append(list, node)` | first `length` cells, then `node` | `length + 1` |
| `list_prepend(list, node)` | `node`, then the first `length` cells | `length + 1` |

A `NULL` node (`none`) returns before any of this and leaves the list.  A list these
functions make has a block of exactly `length` cells (`CList.WellFormed`): each of them
keeps that while the list has fewer than `INT_MAX` nodes, and on such a list
`list_append` and `list_prepend` add the node at the end and at the front
(`listAppend_wellFormed`, `listPrepend_wellFormed`), `list_nth` reads cell `n` and is
`NULL` outside `0 .. length - 1` (`listNth_of_wellFormed`), and `list_length` counts the
cells.  So a run of the two from a well-formed list leaves the nodes of the
prepends, the last first, then its cells, then the nodes of the appends in order
(`foldl_listCall`).  `parser_parse` builds its result with `make_list` and one
`list_append` per token, so the list it returns holds the tokens of `parserParse`, in
order.
-/

namespace MantisDB
namespace SqlParser

/-- `List`: `length`, an `int`, and the cells of the block `elements`.  Its `type` is
`NODE_LIST` whatever the calls. -/
structure CList (α : Type) where
  length : ℤ
  elements : List α
  deriving DecidableEq, Repr

variable {α : Type}

/-- `make_list`: a `palloc0`ed list, `length = 0` and no block. -/
def makeList : CList α := ⟨0, []⟩

/-- `list_append`: a `NULL` node returns; otherwise the block `realloc`ed to
`length + 1` cells keeps its first `length`, the node goes to cell `length`, then
`length++`. -/
def listAppend (list : CList α) (node : Option α) : CList α :=
  match node with
  | none => list
  | some node => ⟨int32 (list.length + 1), list.elements.take list.length.toNat ++ [node]⟩

/-- `list_prepend`: a `NULL` node returns; otherwise the block `realloc`ed to
`length + 1` cells, its first `length` moved up one cell by `memmove`, the node in
cell 0, then `length++`. -/
def listPrepend (list : CList α) (node : Option α) : CList α :=
  match node with
  | none => list
  | some node => ⟨int32 (list.length + 1), node :: list.elements.take list.length.toNat⟩

@[simp] theorem listAppend_none (list : CList α) : listAppend list none = list := rfl

@[simp] theorem listPrepend_none (list : CList α) : listPrepend list none = list := rfl

/-- `list_nth`: `NULL` for `n < 0` or `n ≥ length`, else cell `n`. -/
def listNth (list : CList α) (n : ℤ) : Option α :=
  if n < 0 ∨ list.length ≤ n then none else list.elements[n.toNat]?

/-- `list_length`. -/
def listLength (list : CList α) : ℤ := list.length

/-- The block has exactly `length` cells. -/
def CList.WellFormed (list : CList α) : Prop := list.length = list.elements.length

/-! ### Each call keeps a list well formed -/

section Calls

variable {list : CList α}

theorem makeList_wellFormed : (makeList : CList α).WellFormed := rfl

theorem take_length_of_wellFormed (h : list.WellFormed) :
    list.elements.take list.length.toNat = list.elements := by
  rw [h, Int.toNat_ofNat, List.take_length]

theorem int32_length_succ (h : list.WellFormed) (hn : list.elements.length + 1 < 2 ^ 31) :
    int32 (list.length + 1) = list.elements.length + 1 := by
  rw [h]; exact int32_of_lt (by omega) (by exact_mod_cast hn)

/-- **`list_append`** on a well-formed list adds the node after its cells. -/
theorem listAppend_wellFormed (h : list.WellFormed) (hn : list.elements.length + 1 < 2 ^ 31)
    (node : α) :
    (listAppend list (some node)).WellFormed ∧ (listAppend list (some node)).elements = list.elements ++ [node] := by
  have he : (listAppend list (some node)).elements = list.elements ++ [node] := by
    rw [listAppend, take_length_of_wellFormed h]
  refine ⟨?_, he⟩
  rw [CList.WellFormed, he, List.length_append, List.length_singleton]
  exact_mod_cast int32_length_succ h hn

/-- **`list_prepend`** on a well-formed list puts the node before its cells. -/
theorem listPrepend_wellFormed (h : list.WellFormed) (hn : list.elements.length + 1 < 2 ^ 31)
    (node : α) :
    (listPrepend list (some node)).WellFormed ∧ (listPrepend list (some node)).elements = node :: list.elements := by
  have he : (listPrepend list (some node)).elements = node :: list.elements := by
    rw [listPrepend, take_length_of_wellFormed h]
  refine ⟨?_, he⟩
  rw [CList.WellFormed, he, List.length_cons]
  exact_mod_cast int32_length_succ h hn

/-- **`list_nth`** on a well-formed list reads cell `n`, `NULL` where there is none. -/
theorem listNth_of_wellFormed (h : list.WellFormed) (n : ℤ) :
    listNth list n = if n < 0 then none else list.elements[n.toNat]? := by
  unfold listNth CList.WellFormed at *
  by_cases hn : n < 0
  · simp [hn]
  · rw [if_neg hn]
    split_ifs with hl
    · rw [List.getElem?_eq_none]; omega
    · rfl

/-- A run of `list_append`s of non-`NULL` nodes from a well-formed list appends the nodes
in order, while the list stays below `INT_MAX` nodes. -/
theorem foldl_listAppend (nodes : List α) : ∀ {list : CList α}, list.WellFormed →
    list.elements.length + nodes.length < 2 ^ 31 →
      ((nodes.map some).foldl listAppend list).WellFormed ∧
        ((nodes.map some).foldl listAppend list).elements = list.elements ++ nodes := by
  induction nodes with
  | nil => intro list h _; exact ⟨h, (List.append_nil _).symm⟩
  | cons node nodes ih =>
    intro list h hn
    simp only [List.length_cons] at hn
    obtain ⟨h₁, h₂⟩ := listAppend_wellFormed h (by omega) node
    obtain ⟨h₃, h₄⟩ := ih h₁ (by rw [h₂, List.length_append, List.length_singleton]; omega)
    exact ⟨h₃, by rw [List.map_cons, List.foldl_cons, h₄, h₂, List.append_assoc, List.singleton_append]⟩

end Calls

/-- **The list `parser_parse` returns.**  On every input shorter than `2^31` bytes, the
list it builds by `make_list` and one `list_append` per token, each a `palloc`ed copy
and so not `NULL`, is well formed and holds
the tokens of `parserParse` in order: `list_length` is their number and `list_nth i`
the token of index `i`, `NULL` past the last one. -/
theorem parserParse_list (input : List Char) (hn : input.length < 2 ^ 31) :
    (((parserParse (parserCreate input)).1.map some).foldl listAppend makeList).WellFormed ∧
    listLength (((parserParse (parserCreate input)).1.map some).foldl listAppend makeList) =
      (parserParse (parserCreate input)).1.length ∧
    ∀ i : ℤ, listNth (((parserParse (parserCreate input)).1.map some).foldl listAppend makeList) i =
      if i < 0 then none else (parserParse (parserCreate input)).1[i.toNat]? := by
  obtain ⟨m, hle, -, -, htok, -⟩ := parserParse_run input
  have hlen : (parserParse (parserCreate input)).1.length < 2 ^ 31 := by
    rw [htok, List.length_map, List.length_range]; omega
  obtain ⟨h₁, h₂⟩ := foldl_listAppend (parserParse (parserCreate input)).1 makeList_wellFormed
    (by simpa [makeList] using hlen)
  refine ⟨h₁, ?_, fun i => ?_⟩
  · rw [listLength, h₁, h₂]; rfl
  · rw [listNth_of_wellFormed h₁, h₂]; rfl

theorem parserParse_list_select :
    "select 1".toList.length < 2 ^ 31 ∧
    ((((parserParse (parserCreate "select 1".toList)).1.map some).foldl listAppend makeList).WellFormed ∧
    listLength (((parserParse (parserCreate "select 1".toList)).1.map some).foldl listAppend makeList) =
      (parserParse (parserCreate "select 1".toList)).1.length ∧
    ∀ i : ℤ, listNth (((parserParse (parserCreate "select 1".toList)).1.map some).foldl listAppend makeList) i =
      if i < 0 then none else (parserParse (parserCreate "select 1".toList)).1[i.toNat]?) :=
  ⟨by decide, parserParse_list _ (by decide)⟩


/-! ### Any sequence of `list_append` and `list_prepend` calls -/

/-- A call that adds a node: `list_append(list, node)` or `list_prepend(list, node)`,
`none` for a `NULL` node. -/
inductive ListCall (α : Type)
  | append (node : Option α)
  | prepend (node : Option α)
  deriving DecidableEq, Repr

namespace ListCall

/-- The list a call leaves. -/
def apply (list : CList α) : ListCall α → CList α
  | append node => listAppend list node
  | prepend node => listPrepend list node

/-- The node a `list_append` adds. -/
def appended : ListCall α → Option α
  | append node => node
  | prepend _ => none

/-- The node a `list_prepend` adds. -/
def prepended : ListCall α → Option α
  | append _ => none
  | prepend node => node

/-- On a well-formed list below `INT_MAX` nodes, a call puts its node before or after
the cells, and a call with a `NULL` node leaves the list. -/
theorem apply_wellFormed {list : CList α} (h : list.WellFormed) (hn : list.elements.length + 1 < 2 ^ 31)
    (call : ListCall α) :
    (ListCall.apply list call).WellFormed ∧
      (ListCall.apply list call).elements = call.prepended.toList ++ list.elements ++ call.appended.toList := by
  rcases call with (_ | node) | (_ | node)
  · exact ⟨h, by simp [apply, appended, prepended]⟩
  · simpa [apply, appended, prepended] using listAppend_wellFormed h hn node
  · exact ⟨h, by simp [apply, appended, prepended]⟩
  · simpa [apply, appended, prepended] using listPrepend_wellFormed h hn node

/-- A call adds at most one node. -/
theorem length_added_le (call : ListCall α) : call.prepended.toList.length + call.appended.toList.length ≤ 1 := by
  rcases call with (_ | node) | (_ | node) <;> simp [appended, prepended]

end ListCall

/-- A run of calls from a well-formed list puts the prepended nodes before its cells,
the last first, and the appended ones after them, in order, while the list stays below
`INT_MAX` nodes. -/
theorem foldl_listCall (calls : List (ListCall α)) : ∀ {list : CList α}, list.WellFormed →
    list.elements.length + calls.length < 2 ^ 31 →
      (calls.foldl ListCall.apply list).WellFormed ∧
      (calls.foldl ListCall.apply list).elements =
        (calls.filterMap ListCall.prepended).reverse ++ list.elements ++ calls.filterMap ListCall.appended := by
  induction calls with
  | nil => intro list h _; exact ⟨h, by simp⟩
  | cons call calls ih =>
    intro list h hn
    simp only [List.length_cons] at hn
    obtain ⟨h₁, h₂⟩ := ListCall.apply_wellFormed h (by omega) call
    have hlen : (ListCall.apply list call).elements.length + calls.length < 2 ^ 31 := by
      have := call.length_added_le
      rw [h₂, List.length_append, List.length_append]; omega
    obtain ⟨h₃, h₄⟩ := ih h₁ hlen
    refine ⟨h₃, ?_⟩
    rw [List.foldl_cons, h₄, h₂]
    rcases call with (_ | node) | (_ | node) <;> simp [ListCall.appended, ListCall.prepended]

/-- **Any sequence of `list_append` and `list_prepend` calls from `make_list`.**  For
every sequence of fewer than `2^31` calls, the list is well formed and holds the nodes
of the `list_prepend`s, the last one first, then those of the `list_append`s in the
order of the calls, a call with a `NULL` node adding nothing: `list_length` is the
number of those nodes, and `list_nth i` is the `i`-th of them, `NULL` outside them. -/
theorem listCalls_makeList (calls : List (ListCall α)) (hn : calls.length < 2 ^ 31) :
    (calls.foldl ListCall.apply makeList).WellFormed ∧
    listLength (calls.foldl ListCall.apply makeList) =
      (calls.filterMap ListCall.prepended).length + (calls.filterMap ListCall.appended).length ∧
    ∀ i : ℤ, listNth (calls.foldl ListCall.apply makeList) i =
      if i < 0 then none
      else ((calls.filterMap ListCall.prepended).reverse ++ calls.filterMap ListCall.appended)[i.toNat]? := by
  obtain ⟨h₁, h₂⟩ := foldl_listCall calls makeList_wellFormed (by simpa [makeList] using hn)
  rw [show (makeList : CList α).elements = [] from rfl, List.append_nil] at h₂
  refine ⟨h₁, ?_, fun i => by rw [listNth_of_wellFormed h₁, h₂]⟩
  rw [listLength, h₁, h₂, List.length_append, List.length_reverse]
  omega

theorem listCalls_makeList_null :
    [ListCall.append (some 1), .prepend none, .prepend (some 2), .append (some 3)].length < 2 ^ 31 ∧
    (([ListCall.append (some 1), .prepend none, .prepend (some 2), .append (some 3)].foldl ListCall.apply
      makeList).WellFormed ∧
    listLength ([ListCall.append (some 1), .prepend none, .prepend (some 2), .append (some 3)].foldl ListCall.apply
      makeList) =
      ([ListCall.append (some 1), .prepend none, .prepend (some 2), .append (some (3 : ℕ))].filterMap
        ListCall.prepended).length +
      ([ListCall.append (some 1), .prepend none, .prepend (some 2), .append (some (3 : ℕ))].filterMap
        ListCall.appended).length ∧
    ∀ i : ℤ, listNth ([ListCall.append (some 1), .prepend none, .prepend (some 2), .append (some 3)].foldl
      ListCall.apply makeList) i =
      if i < 0 then none
      else (([ListCall.append (some 1), .prepend none, .prepend (some 2), .append (some (3 : ℕ))].filterMap
        ListCall.prepended).reverse ++
        [ListCall.append (some 1), .prepend none, .prepend (some 2), .append (some 3)].filterMap
          ListCall.appended)[i.toNat]?) :=
  ⟨by decide, listCalls_makeList _ (by decide)⟩

end SqlParser
end MantisDB
