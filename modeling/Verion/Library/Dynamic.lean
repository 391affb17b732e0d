import Verion.Library.Json

/-!
# Dynamic values in JSON

What `encoding/json` writes for a value of type `any`, and what it stores in one. A map is
the list of its entries in the order of the keys, in which they are written.
-/

namespace Json

/-- The numbers: `format` writes the finite ones as `json.Marshal` does, with the fewest
digits that `strconv.ParseFloat` reads as the same number. -/
structure Floats where
  F : Type
  format : F → Option (List Char)
  parse : List Char → Option F
  isNumber_format : ∀ {f l}, format f = some l → IsNumber l
  parse_format : ∀ {f l}, format f = some l → parse l = some f

/-- A dynamic value: what `json.Unmarshal` stores, integers, and functions for all that
cannot be written. -/
inductive Any (F : Type) where
  | nil
  | bool (b : Bool)
  | float64 (f : F)
  | int (i : Int)
  | string (s : List UInt8)
  | slice (items : List (Any F))
  | map (entries : List (List UInt8 × Any F))
  | func

namespace Any

variable {N : Floats}

/-! ### Writing -/

mutual

def write : Any N.F → Option (List Char)
  | .nil => some "null".toList
  | .bool b => some (toString b).toList
  | .float64 f => N.format f
  | .int i => some (integer i)
  | .string s => some (quote s)
  | .slice items => (writeItems items).map printArray
  | .map entries => (writeEntries entries).map printObject
  | .func => none

def writeItems : List (Any N.F) → Option (List (List Char))
  | [] => some []
  | v :: rest => do
    let text ← write v
    let texts ← writeItems rest
    some (text :: texts)

def writeEntries : List (List UInt8 × Any N.F) → Option (List (List Char × List Char))
  | [] => some []
  | (key, v) :: rest => do
    let text ← write v
    let fields ← writeEntries rest
    some (((Utf8.decode key).flatMap quoteRune, text) :: fields)

end

/-! ### Storing -/

/-- An entry of an object that is not there yet. -/
def insert (key : List UInt8) (v : Any N.F) :
    List (List UInt8 × Any N.F) → List (List UInt8 × Any N.F)
  | [] => [(key, v)]
  | (k, u) :: rest =>
    if key < k then (key, v) :: (k, u) :: rest
    else if key = k then (k, u) :: rest
    else (k, u) :: insert key v rest

mutual

def store : Value → Option (Any N.F)
  | .null => some .nil
  | .bool b => some (.bool b)
  | .number literal => (N.parse literal).map .float64
  | .string s => some (.string (Utf8.encode s))
  | .array items => (storeItems items).map .slice
  | .object members => (storeMembers members).map .map

def storeItems : List Value → Option (List (Any N.F))
  | [] => some []
  | v :: rest => do
    let u ← store v
    let us ← storeItems rest
    some (u :: us)

/-- Of several members of one name the last counts. -/
def storeMembers : List (List Char × Value) → Option (List (List UInt8 × Any N.F))
  | [] => some []
  | (name, v) :: rest => do
    let u ← store v
    let us ← storeMembers rest
    some (insert (Utf8.encode name) u us)

end

/-! ### Maps keep their keys in order -/

def Ordered (entries : List (List UInt8 × Any N.F)) : Prop :=
  entries.Pairwise fun a b => a.1 < b.1

/-- A value that exists: every map in it has each key once. -/
inductive Proper : Any N.F → Prop where
  | nil : Proper .nil
  | bool (b : Bool) : Proper (.bool b)
  | float64 (f : N.F) : Proper (.float64 f)
  | int (i : Int) : Proper (.int i)
  | string (s : List UInt8) : Proper (.string s)
  | slice {items : List (Any N.F)} (h : ∀ v ∈ items, Proper v) : Proper (.slice items)
  | map {entries : List (List UInt8 × Any N.F)} (hkeys : Ordered entries)
      (h : ∀ e ∈ entries, Proper e.2) : Proper (.map entries)
  | func : Proper .func

theorem mem_insert {key : List UInt8} {v : Any N.F} {entries : List (List UInt8 × Any N.F)}
    {e : List UInt8 × Any N.F} (h : e ∈ insert key v entries) : e = (key, v) ∨ e ∈ entries := by
  induction entries with
  | nil => simpa [insert] using h
  | cons head rest ih =>
    obtain ⟨k, u⟩ := head
    rw [insert] at h
    split at h
    · simpa using h
    · split at h
      · exact .inr h
      · rcases List.mem_cons.mp h with rfl | hrest
        · exact .inr List.mem_cons_self
        · exact (ih hrest).imp_right (List.mem_cons_of_mem _)

theorem ordered_insert (key : List UInt8) (v : Any N.F) {entries : List (List UInt8 × Any N.F)}
    (h : Ordered entries) : Ordered (insert key v entries) := by
  induction entries with
  | nil => exact List.pairwise_singleton _ _
  | cons head rest ih =>
    obtain ⟨k, u⟩ := head
    obtain ⟨hhead, hrest⟩ := List.pairwise_cons.mp h
    rw [insert]
    split
    case isTrue hlt =>
      refine List.pairwise_cons.mpr ⟨fun e he => ?_, h⟩
      rcases List.mem_cons.mp he with rfl | he
      · exact hlt
      · exact List.lt_trans hlt (hhead e he)
    case isFalse hle =>
      split
      case isTrue => exact h
      case isFalse hne =>
        have hlt : k < key := Std.lt_of_le_of_ne (List.not_lt.mp hle) (Ne.symm hne)
        refine List.pairwise_cons.mpr ⟨fun e he => ?_, ih hrest⟩
        rcases mem_insert he with rfl | he
        · exact hlt
        · exact hhead e he

/-- A key before all others comes first. -/
theorem insert_first {key : List UInt8} {v : Any N.F} {entries : List (List UInt8 × Any N.F)}
    (h : ∀ e ∈ entries, key < e.1) : insert key v entries = (key, v) :: entries := by
  cases entries with
  | nil => rfl
  | cons head rest => rw [insert, if_pos (h head List.mem_cons_self)]

mutual

theorem proper_store : ∀ (v : Value) {u : Any N.F}, store v = some u → Proper u
  | .null, _, h => by cases h; exact .nil
  | .bool b, _, h => by cases h; exact .bool b
  | .number literal, u, h => by
    rw [store] at h
    obtain ⟨f, -, rfl⟩ := Option.map_eq_some_iff.mp h
    exact .float64 f
  | .string s, _, h => by cases h; exact .string _
  | .array items, u, h => by
    rw [store] at h
    obtain ⟨us, hus, rfl⟩ := Option.map_eq_some_iff.mp h
    exact .slice (proper_storeItems items hus)
  | .object members, u, h => by
    rw [store] at h
    obtain ⟨us, hus, rfl⟩ := Option.map_eq_some_iff.mp h
    obtain ⟨hkeys, hvalues⟩ := proper_storeMembers members hus
    exact .map hkeys hvalues

theorem proper_storeItems : ∀ (vs : List Value) {us : List (Any N.F)},
    storeItems vs = some us → ∀ u ∈ us, Proper u
  | [], _, h, u, hu => by cases h; cases hu
  | v :: vs, us, h, u, hu => by
    rw [storeItems] at h
    obtain ⟨w, hw, h⟩ := Option.bind_eq_some_iff.mp h
    obtain ⟨ws, hws, h⟩ := Option.bind_eq_some_iff.mp h
    cases h
    rcases List.mem_cons.mp hu with rfl | hu
    · exact proper_store v hw
    · exact proper_storeItems vs hws u hu

theorem proper_storeMembers : ∀ (ms : List (List Char × Value)) {us : List (List UInt8 × Any N.F)},
    storeMembers ms = some us → Ordered us ∧ ∀ e ∈ us, Proper e.2
  | [], _, h => by cases h; exact ⟨.nil, fun _ he => nomatch he⟩
  | (name, v) :: ms, us, h => by
    rw [storeMembers] at h
    obtain ⟨w, hw, h⟩ := Option.bind_eq_some_iff.mp h
    obtain ⟨ws, hws, h⟩ := Option.bind_eq_some_iff.mp h
    cases h
    obtain ⟨hkeys, hvalues⟩ := proper_storeMembers ms hws
    refine ⟨ordered_insert _ _ hkeys, fun e he => ?_⟩
    rcases mem_insert he with rfl | he
    · exact proper_store v hw
    · exact hvalues e he

end

/-! ### Values that come back -/

/-- A string of characters. -/
def IsText (s : List UInt8) : Prop := Utf8.encode (Utf8.runes s) = s

instance (s : List UInt8) : Decidable (IsText s) := inferInstanceAs (Decidable (_ = _))

/-- The kinds that are stored, in at most so many levels: no integers, no functions, only
finite numbers, and only characters in strings. -/
inductive Stored : Nat → Any N.F → Prop where
  | nil (n : Nat) : Stored n .nil
  | bool (n : Nat) (b : Bool) : Stored n (.bool b)
  | float64 (n : Nat) {f : N.F} {l : List Char} (h : N.format f = some l) : Stored n (.float64 f)
  | string (n : Nat) {s : List UInt8} (h : IsText s) : Stored n (.string s)
  | slice {n : Nat} {items : List (Any N.F)} (h : ∀ v ∈ items, Stored n v) :
      Stored (n + 1) (.slice items)
  | map {n : Nat} {entries : List (List UInt8 × Any N.F)} (hnames : ∀ e ∈ entries, IsText e.1)
      (h : ∀ e ∈ entries, Stored n e.2) : Stored (n + 1) (.map entries)

/-- `v` is written as a text that is read and stored as `v` again. -/
def Returns (n : Nat) (v : Any N.F) : Prop :=
  ∃ text value, write v = some text ∧ Reads n text value ∧ store value = some v

theorem returns_items {n : Nat} {items : List (Any N.F)} (h : ∀ v ∈ items, Returns n v) :
    ∃ texts values, writeItems items = some texts ∧ List.Forall₂ (Reads n) texts values ∧
      storeItems values = some items := by
  induction items with
  | nil => exact ⟨[], [], rfl, .nil, rfl⟩
  | cons v items ih =>
    obtain ⟨text, value, hwrite, hreads, hstore⟩ := h v List.mem_cons_self
    obtain ⟨texts, values, hwrites, hall, hstores⟩ :=
      ih fun u hu => h u (List.mem_cons_of_mem _ hu)
    refine ⟨text :: texts, value :: values, ?_, .cons hreads hall, ?_⟩
    · rw [writeItems, hwrite, hwrites]
      rfl
    · rw [storeItems, hstore, hstores]
      rfl

theorem returns_entries {n : Nat} {entries : List (List UInt8 × Any N.F)}
    (hkeys : Ordered entries) (hnames : ∀ e ∈ entries, IsText e.1)
    (h : ∀ e ∈ entries, Returns n e.2) :
    ∃ fields members, writeEntries entries = some fields ∧ Written n fields members ∧
      storeMembers members = some entries := by
  induction entries with
  | nil => exact ⟨[], [], rfl, .nil, rfl⟩
  | cons e entries ih =>
    obtain ⟨key, v⟩ := e
    obtain ⟨hhead, hrest⟩ := List.pairwise_cons.mp hkeys
    have hkey : Utf8.encode (Utf8.runes key) = key := hnames _ List.mem_cons_self
    obtain ⟨text, value, hwrite, hreads, hstore⟩ := h _ List.mem_cons_self
    obtain ⟨fields, members, hwrites, hall, hstores⟩ := ih hrest
      (fun u hu => hnames u (List.mem_cons_of_mem _ hu)) fun u hu => h u (List.mem_cons_of_mem _ hu)
    refine ⟨((Utf8.decode key).flatMap quoteRune, text) :: fields,
      (Utf8.runes key, value) :: members, ?_, .cons ⟨spells_quote key, hreads⟩ hall, ?_⟩
    · rw [writeEntries, hwrite, hwrites]
      rfl
    · rw [storeMembers, hstore, hstores, hkey]
      exact congrArg some (insert_first hhead)

theorem Stored.returns {n : Nat} {v : Any N.F} (h : Stored n v) (hv : Proper v) : Returns n v := by
  induction h with
  | nil n => exact ⟨_, _, rfl, reads_null n, rfl⟩
  | bool n b => exact ⟨_, _, rfl, reads_bool n b, rfl⟩
  | float64 n h =>
    refine ⟨_, _, h, reads_number n (N.isNumber_format h), ?_⟩
    rw [store, N.parse_format h, Option.map_some]
  | string n h =>
    refine ⟨_, _, rfl, reads_quote n _, ?_⟩
    rw [store, h]
  | slice h ih =>
    cases hv with
    | slice hitems =>
      obtain ⟨texts, values, hwrite, hreads, hstore⟩ :=
        returns_items fun v hv => ih v hv (hitems v hv)
      refine ⟨printArray texts, .array values, ?_, reads_array hreads, ?_⟩
      · rw [write, hwrite, Option.map_some]
      · rw [store, hstore, Option.map_some]
  | map hnames h ih =>
    cases hv with
    | map hkeys hvalues =>
      obtain ⟨fields, members, hwrite, hreads, hstore⟩ :=
        returns_entries hkeys hnames fun e he => ih e he (hvalues e he)
      refine ⟨printObject fields, .object members, ?_, reads_object hreads, ?_⟩
      · rw [write, hwrite, Option.map_some]
      · rw [store, hstore, Option.map_some]

/-- The entries of a map come back. -/
theorem Stored.returns_map {n : Nat} {entries : List (List UInt8 × Any N.F)}
    (h : Stored n (.map entries)) (hproper : Proper (.map entries)) :
    ∃ text members, write (.map entries) = some text ∧ Reads n text (.object members) ∧
      storeMembers members = some entries := by
  cases h with
  | map hnames h =>
    cases hproper with
    | map hkeys hvalues =>
      obtain ⟨fields, members, hwrite, hreads, hstore⟩ :=
        returns_entries hkeys hnames fun e he => (h e he).returns (hvalues e he)
      refine ⟨printObject fields, members, ?_, reads_object hreads, hstore⟩
      rw [write, hwrite, Option.map_some]

end Any

/-! ### Maps -/

/-- A value of type `map[string]any`. -/
structure Map (N : Floats) where
  entries : List (List UInt8 × Any N.F)
  proper : (Any.map entries).Proper

namespace Map

variable {N : Floats}

def empty : Map N := ⟨[], .map .nil fun _ he => nomatch he⟩

def isEmpty (m : Map N) : Bool := m.entries.isEmpty

def marshal (m : Map N) : Option (List UInt8) := (Any.map m.entries).write.map Utf8.encode

/-- `null` is read as a nil map, any other value as an error. -/
def unmarshal (text : List UInt8) : Option (Map N) :=
  match parse text with
  | some (.object members) =>
    match h : Any.storeMembers members with
    | some entries => some ⟨entries, .map (Any.proper_storeMembers members h).1
        (Any.proper_storeMembers members h).2⟩
    | none => none
  | some .null => some empty
  | _ => none

/-- The map holds values that are stored, in at most as many levels as are read. -/
def IsStored (m : Map N) : Prop := (Any.map m.entries).Stored maxDepth

theorem unmarshal_marshal {m : Map N} (h : m.IsStored) :
    ∃ text, m.marshal = some text ∧ unmarshal text = some m := by
  obtain ⟨chars, members, hwrite, hreads, hstore⟩ := Any.Stored.returns_map h m.proper
  refine ⟨Utf8.encode chars, ?_, ?_⟩
  · rw [marshal, hwrite, Option.map_some]
  · simp only [unmarshal, parse_of_reads hreads]
    split
    case h_1 hentries =>
      cases hstore.symm.trans hentries
      rfl
    case h_2 hnone => cases hstore.symm.trans hnone

end Map

end Json
