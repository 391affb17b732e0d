import Verion.Library.Scan
import Mathlib.Data.List.Perm.Basic

/-!
# SQL queries over one table

The part of SQL that queries built from optional clauses use: a `SELECT` from one table
with comparisons joined by `AND`, one sort key, `LIMIT` and `OFFSET`, and numbered
parameters. The lexer goes through a text character by character, so that what is
appended to a text is what is appended to its tokens.
-/

namespace Sql

/-! ### Tokens -/

inductive Keyword where
  | SELECT | FROM | WHERE | AND | ORDER | BY | ASC | DESC | LIMIT | OFFSET
deriving DecidableEq

inductive Op where
  | eq | ge | le
deriving DecidableEq

inductive Token where
  | keyword (k : Keyword)
  | name (s : List Char)
  | number (n : Nat)
  | param (n : Nat)
  | op (o : Op)
  | comma
  | bad
deriving DecidableEq

def keywords : List (List Char × Keyword) :=
  [("SELECT".toList, .SELECT), ("FROM".toList, .FROM), ("WHERE".toList, .WHERE),
    ("AND".toList, .AND), ("ORDER".toList, .ORDER), ("BY".toList, .BY), ("ASC".toList, .ASC),
    ("DESC".toList, .DESC), ("LIMIT".toList, .LIMIT), ("OFFSET".toList, .OFFSET)]

def wordToken (s : List Char) : Token :=
  match keywords.find? fun k => k.1 == s with
  | some (_, k) => .keyword k
  | none => .name s

def opToken (s : List Char) : Token :=
  if s = ['='] then .op .eq else if s = ['>', '='] then .op .ge
  else if s = ['<', '='] then .op .le else .bad

/-- The token that is not complete yet. -/
inductive Pending where
  | none
  | word (s : List Char)
  | number (ds : List Char)
  | param (ds : List Char)
  | op (s : List Char)

/-- The tokens so far, the last one first. -/
structure Lexer where
  done : List Token
  pending : Pending

def Pending.close : Pending → List Token → List Token
  | .none, done => done
  | .word s, done => wordToken s :: done
  | .number ds, done => .number (Scan.value ds) :: done
  | .param ds, done => (if ds = [] then .bad else .param (Scan.value ds)) :: done
  | .op s, done => opToken s :: done

namespace Lexer

def init : Lexer := ⟨[], .none⟩

def closed (l : Lexer) : List Token := l.pending.close l.done

def isSpace (c : Char) : Bool := c == ' ' || c == '\t' || c == '\n'

def isOp (c : Char) : Bool := c == '=' || c == '<' || c == '>'

def step (l : Lexer) (c : Char) : Lexer :=
  if isSpace c then ⟨l.closed, .none⟩
  else if c.isDigit then
    match l.pending with
    | .word s => ⟨l.done, .word (s ++ [c])⟩
    | .number ds => ⟨l.done, .number (ds ++ [c])⟩
    | .param ds => ⟨l.done, .param (ds ++ [c])⟩
    | _ => ⟨l.closed, .number [c]⟩
  else if c.isAlpha || c == '_' then
    match l.pending with
    | .word s => ⟨l.done, .word (s ++ [c])⟩
    | _ => ⟨l.closed, .word [c]⟩
  else if c = '$' then
    match l.pending with
    | .word s => ⟨l.done, .word (s ++ [c])⟩
    | _ => ⟨l.closed, .param []⟩
  else if isOp c then
    match l.pending with
    | .op s => ⟨l.done, .op (s ++ [c])⟩
    | _ => ⟨l.closed, .op [c]⟩
  else if c = ',' then ⟨.comma :: l.closed, .none⟩
  else ⟨.bad :: l.closed, .none⟩

def run (l : Lexer) (text : List Char) : Lexer := text.foldl step l

end Lexer

def lex (text : List Char) : List Token := (Lexer.init.run text).closed.reverse

/-- The numbers of the parameters, in the order of the text. -/
def params (tokens : List Token) : List Nat :=
  tokens.filterMap fun
    | .param n => some n
    | _ => none

namespace Lexer

theorem run_append (l : Lexer) (a b : List Char) : l.run (a ++ b) = (l.run a).run b :=
  List.foldl_append

theorem step_param {c : Char} (h : c.isDigit = true) (done : List Token) (ds : List Char) :
    (⟨done, .param ds⟩ : Lexer).step c = ⟨done, .param (ds ++ [c])⟩ := by
  have hspace : isSpace c = false := by
    have hne : ∀ d : Char, d.isDigit = false → c ≠ d := fun d hd heq =>
      Bool.false_ne_true (hd.symm.trans (heq ▸ h))
    simp [isSpace, hne ' ' rfl, hne '\t' rfl, hne '\n' rfl]
  rw [step, hspace, h]
  rfl

theorem run_param {ds : List Char} (h : ∀ c ∈ ds, c.isDigit = true) (done : List Token)
    (pre : List Char) : (⟨done, .param pre⟩ : Lexer).run ds = ⟨done, .param (pre ++ ds)⟩ := by
  induction ds generalizing pre with
  | nil => simp [run]
  | cons c ds ih =>
    have hc := step_param (h c List.mem_cons_self) done pre
    have hds := ih (fun d hd => h d (List.mem_cons_of_mem _ hd)) (pre ++ [c])
    rw [run, List.foldl_cons, hc]
    simpa [run] using hds

end Lexer

/-- Whatever stands before, `s` adds the tokens and opens a parameter. -/
def Opens (s : List Char) (tokens : List Token) : Prop :=
  ∀ l : Lexer, l.run s = ⟨tokens.reverse ++ l.closed, .param []⟩

/-- Whatever stands before, `s` adds the tokens. -/
def Adds (s : List Char) (tokens : List Token) : Prop :=
  ∀ l : Lexer, (l.run s).closed = tokens.reverse ++ l.closed

namespace Lexer

/-- The lexer with more tokens below those it has. -/
def behind (l : Lexer) (done : List Token) : Lexer := ⟨l.done ++ done, l.pending⟩

theorem closed_behind (l : Lexer) (done : List Token) :
    (l.behind done).closed = l.closed ++ done := by
  obtain ⟨before, pending⟩ := l
  cases pending <;> rfl

theorem step_behind (l : Lexer) (done : List Token) (c : Char) :
    (l.behind done).step c = (l.step c).behind done := by
  have hclosed := closed_behind l done
  obtain ⟨before, pending⟩ := l
  unfold step
  rw [hclosed]
  cases pending <;> simp only [behind] <;> split_ifs <;> rfl

theorem run_behind (l : Lexer) (done : List Token) (s : List Char) :
    (l.behind done).run s = (l.run s).behind done := by
  induction s generalizing l with
  | nil => rfl
  | cons c s ih => rw [run, List.foldl_cons, step_behind]; exact ih (l.step c)

/-- After a space a text is read as if nothing stood before it. -/
theorem run_space (l : Lexer) (s : List Char) : l.run (' ' :: s) = (init.run s).behind l.closed :=
  (run_behind init l.closed s).symm ▸ rfl

end Lexer

theorem opens_of_run {s : List Char} {tokens : List Token}
    (h : Lexer.init.run s = ⟨tokens.reverse, .param []⟩) : Opens (' ' :: s) tokens := by
  intro l
  rw [Lexer.run_space, h]
  rfl

theorem adds_of_lex {s : List Char} {tokens : List Token} (h : lex s = tokens) :
    Adds (' ' :: s) tokens := by
  intro l
  rw [Lexer.run_space, Lexer.closed_behind, ← h, lex, List.reverse_reverse]

theorem lex_append {s : List Char} {tokens : List Token} (h : Adds s tokens) (text : List Char) :
    lex (text ++ s) = lex text ++ tokens := by
  rw [lex, Lexer.run_append, h, List.reverse_append, List.reverse_reverse, lex]

/-- A number after the dollar sign is the number of the parameter. -/
theorem adds_toDigits {s : List Char} {tokens : List Token} (h : Opens s tokens) (n : Nat) :
    Adds (s ++ Nat.toDigits 10 n) (tokens ++ [.param n]) := by
  intro l
  obtain ⟨⟨hne, hdigits⟩, hvalue⟩ := Scan.numeral_toDigits n
  rw [Lexer.run_append, h l, Lexer.run_param hdigits, List.nil_append, Lexer.closed, Pending.close,
    if_neg hne, hvalue, List.reverse_append]
  rfl

theorem params_append (a b : List Token) : params (a ++ b) = params a ++ params b :=
  List.filterMap_append

/-! ### Queries under construction -/

/-- A text with its arguments and the number that the next one gets. -/
structure Query (A : Type) where
  text : List Char
  args : List A
  next : Nat

namespace Query

variable {A : Type}

/-- `q += s`. -/
def add (q : Query A) (s : List Char) : Query A := { q with text := q.text ++ s }

/-- `q += fmt.Sprintf(s, i)` and `args = append(args, a)`. -/
def append (q : Query A) (s : List Char) (a : A) : Query A :=
  { q with text := q.text ++ (s ++ Nat.toDigits 10 q.next), args := q.args ++ [a] }

/-- The same with `i++`. -/
def clause (q : Query A) (s : List Char) (a : A) : Query A :=
  { q.append s a with next := q.next + 1 }

/-- A clause that is only there if there is an argument. -/
def clause? (q : Query A) (s : List Char) : Option A → Query A
  | none => q
  | some a => q.clause s a

def append? (q : Query A) (s : List Char) : Option A → Query A
  | none => q
  | some a => q.append s a

/-- The parameters are those of the arguments, each once. -/
def Numbered (q : Query A) : Prop := params (lex q.text) = List.range' 1 q.args.length

/-- The next number is free. -/
def Ready (q : Query A) : Prop := q.Numbered ∧ q.next = q.args.length + 1

theorem lex_add (q : Query A) {s : List Char} {tokens : List Token} (h : Adds s tokens) :
    lex (q.add s).text = lex q.text ++ tokens :=
  lex_append h q.text

theorem lex_append (q : Query A) {s : List Char} {tokens : List Token}
    (h : Opens s tokens) (a : A) :
    lex (q.append s a).text = lex q.text ++ (tokens ++ [.param q.next]) :=
  Sql.lex_append (adds_toDigits h q.next) q.text

theorem Ready.add {q : Query A} (hq : q.Ready) {s : List Char} {tokens : List Token}
    (h : Adds s tokens) (hparams : params tokens = []) : (q.add s).Ready := by
  refine ⟨?_, hq.2⟩
  rw [Numbered, q.lex_add h, params_append, hparams, List.append_nil]
  exact hq.1

theorem Ready.append {q : Query A} (hq : q.Ready) {s : List Char} {tokens : List Token}
    (h : Opens s tokens) (hparams : params tokens = []) (a : A) : (q.append s a).Numbered := by
  have hargs : (q.append s a).args.length = q.args.length + 1 := by
    rw [Query.append, List.length_append, List.length_singleton]
  rw [Numbered, q.lex_append h, params_append, params_append, hparams, hq.1, hargs,
    List.range'_concat, hq.2]
  simp [params, Nat.add_comm]

theorem Ready.clause {q : Query A} (hq : q.Ready) {s : List Char} {tokens : List Token}
    (h : Opens s tokens) (hparams : params tokens = []) (a : A) : (q.clause s a).Ready := by
  refine ⟨hq.append h hparams a, ?_⟩
  rw [Query.clause, Query.append, List.length_append, List.length_singleton, hq.2]

theorem Ready.clause? {q : Query A} (hq : q.Ready) {s : List Char} {tokens : List Token}
    (h : Opens s tokens) (hparams : params tokens = []) (a : Option A) : (q.clause? s a).Ready := by
  cases a with
  | none => exact hq
  | some a => exact hq.clause h hparams a

theorem Ready.append? {q : Query A} (hq : q.Ready) {s : List Char} {tokens : List Token}
    (h : Opens s tokens) (hparams : params tokens = []) (a : Option A) :
    (q.append? s a).Numbered := by
  cases a with
  | none => exact hq.1
  | some a => exact hq.append h hparams a

end Query

/-! ### Statements -/

inductive Cond where
  | compare (column : List Char) (o : Op) (param : Nat)
  | constant (a b : Nat)
deriving DecidableEq

structure Select where
  columns : List (List Char)
  table : List Char
  conds : List Cond
  orderBy : List Char
  desc : Bool
  limit : Option Nat
  offset : Option Nat
deriving DecidableEq

def parseColumns : List Token → Option (List (List Char) × List Token)
  | .name c :: .comma :: rest => (parseColumns rest).map fun p => (c :: p.1, p.2)
  | .name c :: .keyword .FROM :: rest => some ([c], rest)
  | _ => none

def parseConds : List Token → Option (List Cond × List Token)
  | .name c :: .op o :: .param n :: .keyword .AND :: rest =>
    (parseConds rest).map fun p => (.compare c o n :: p.1, p.2)
  | .name c :: .op o :: .param n :: rest => some ([.compare c o n], rest)
  | .number a :: .op .eq :: .number b :: .keyword .AND :: rest =>
    (parseConds rest).map fun p => (.constant a b :: p.1, p.2)
  | .number a :: .op .eq :: .number b :: rest => some ([.constant a b], rest)
  | _ => none

def parseOrder : List Token → Option (List Char × Bool × List Token)
  | .keyword .ORDER :: .keyword .BY :: .name c :: .keyword .ASC :: rest => some (c, false, rest)
  | .keyword .ORDER :: .keyword .BY :: .name c :: .keyword .DESC :: rest => some (c, true, rest)
  | _ => none

def parseWindow : List Token → Option (Option Nat × Option Nat)
  | [] => some (none, none)
  | [.keyword .LIMIT, .param n] => some (some n, none)
  | [.keyword .OFFSET, .param n] => some (none, some n)
  | [.keyword .LIMIT, .param n, .keyword .OFFSET, .param m] => some (some n, some m)
  | _ => none

def parse : List Token → Option Select
  | .keyword .SELECT :: rest => do
    let (columns, rest) ← parseColumns rest
    match rest with
    | .name table :: .keyword .WHERE :: rest => do
      let (conds, rest) ← parseConds rest
      let (orderBy, desc, rest) ← parseOrder rest
      let (limit, offset) ← parseWindow rest
      some { columns, table, conds, orderBy, desc, limit, offset }
    | _ => none
  | _ => none

/-! ### Statements as tokens -/

def Cond.tokens : Cond → List Token
  | .compare c o n => [.name c, .op o, .param n]
  | .constant a b => [.number a, .op .eq, .number b]

def condTokens : List Cond → List Token
  | [] => []
  | c :: cs => c.tokens ++ cs.flatMap fun c => .keyword .AND :: c.tokens

def columnTokens : List (List Char) → List Token
  | [] => []
  | [c] => [.name c]
  | c :: cs => .name c :: .comma :: columnTokens cs

def orderTokens (orderBy : List Char) (desc : Bool) : List Token :=
  [.keyword .ORDER, .keyword .BY, .name orderBy, .keyword (if desc then .DESC else .ASC)]

def paramTokens (k : Keyword) : Option Nat → List Token
  | none => []
  | some n => [.keyword k, .param n]

def Select.tokens (s : Select) : List Token :=
  .keyword .SELECT :: (columnTokens s.columns ++ .keyword .FROM :: .name s.table ::
    .keyword .WHERE :: (condTokens s.conds ++ (orderTokens s.orderBy s.desc ++
      (paramTokens .LIMIT s.limit ++ paramTokens .OFFSET s.offset))))

theorem parseColumns_tokens (cs : List (List Char)) (rest : List Token) (h : cs ≠ []) :
    parseColumns (columnTokens cs ++ .keyword .FROM :: rest) = some (cs, rest) := by
  induction cs with
  | nil => exact absurd rfl h
  | cons c cs ih =>
    cases cs with
    | nil => rfl
    | cons d cs =>
      have hrest := ih (List.cons_ne_nil d cs)
      rw [columnTokens.eq_3 c _ (List.cons_ne_nil d cs), List.cons_append, List.cons_append,
        parseColumns, hrest, Option.map_some]

theorem parseConds_next (c : Cond) (rest : List Token) :
    parseConds (c.tokens ++ .keyword .AND :: rest) =
      (parseConds rest).map fun p => (c :: p.1, p.2) := by
  cases c <;> rfl

theorem parseConds_last (c : Cond) {rest : List Token} (h : ∀ tail, rest ≠ .keyword .AND :: tail) :
    parseConds (c.tokens ++ rest) = some ([c], rest) := by
  cases c <;> simp [Cond.tokens, parseConds]

/-- What `AND` joins is read one by one. -/
theorem parseConds_joined (cs : List Cond) {rest : List Token}
    (hrest : ∀ tail, rest ≠ .keyword .AND :: tail) (c : Cond) :
    parseConds (c.tokens ++ (cs.flatMap (fun c => .keyword .AND :: c.tokens) ++ rest)) =
      some (c :: cs, rest) := by
  induction cs generalizing c with
  | nil => exact parseConds_last c hrest
  | cons d cs ih =>
    rw [List.flatMap_cons, List.cons_append, List.cons_append, List.append_assoc, parseConds_next,
      ih, Option.map_some]

theorem parseWindow_tokens (limit offset : Option Nat) :
    parseWindow (paramTokens .LIMIT limit ++ paramTokens .OFFSET offset) =
      some (limit, offset) := by
  cases limit <;> cases offset <;> rfl

theorem parseOrder_tokens (orderBy : List Char) (desc : Bool) (rest : List Token) :
    parseOrder (orderTokens orderBy desc ++ rest) = some (orderBy, desc, rest) := by
  cases desc <;> rfl

/-- A statement is read from its tokens. -/
theorem parse_tokens {s : Select} (hcolumns : s.columns ≠ []) (hconds : s.conds ≠ []) :
    parse s.tokens = some s := by
  obtain ⟨c, cs, hcs⟩ := List.exists_cons_of_ne_nil hconds
  have hread := @parseConds_joined cs (orderTokens s.orderBy s.desc ++
    (paramTokens .LIMIT s.limit ++ paramTokens .OFFSET s.offset)) (fun _ h => by cases h) c
  rw [Select.tokens, parse, parseColumns_tokens _ _ hcolumns]
  simp only [Option.bind_eq_bind, Option.bind_some, hcs, condTokens, List.append_assoc, hread,
    parseOrder_tokens, parseWindow_tokens]
  rw [← hcs]

/-! ### Optional clauses -/

/-- How far an optional clause advances the number. -/
def advance {α : Type} (a : Option α) : Nat := if a.isSome then 1 else 0

/-- An optional comparison, under the number `n`. -/
def optional {α : Type} (column : List Char) (o : Op) (n : Nat) (a : Option α) : List Cond :=
  (a.map fun _ => .compare column o n).toList

namespace Query

variable {A α : Type} (q : Query A) {s : List Char} (a : Option A)

@[simp] theorem next_clause? (s : List Char) : (q.clause? s a).next = q.next + advance a := by
  cases a <;> rfl

theorem lex_and? {column : List Char} {o : Op}
    (h : Opens s [.keyword .AND, .name column, .op o]) :
    lex (q.clause? s a).text = lex q.text ++
      (optional column o q.next a).flatMap fun c => .keyword .AND :: c.tokens := by
  cases a with
  | none => exact (List.append_nil _).symm
  | some a => exact q.lex_append h a

theorem lex_limit? {k : Keyword} (h : Opens s [.keyword k]) :
    lex (q.clause? s a).text = lex q.text ++ paramTokens k (a.map fun _ => q.next) := by
  cases a with
  | none => exact (List.append_nil _).symm
  | some a => exact q.lex_append h a

theorem lex_offset? {k : Keyword} (h : Opens s [.keyword k]) :
    lex (q.append? s a).text = lex q.text ++ paramTokens k (a.map fun _ => q.next) := by
  cases a with
  | none => exact (List.append_nil _).symm
  | some a => exact q.lex_append h a

end Query

@[simp] theorem advance_map {α β : Type} (f : α → β) (a : Option α) :
    advance (a.map f) = advance a := by
  cases a <;> rfl

@[simp] theorem optional_map {α β : Type} (column : List Char) (o : Op) (n : Nat) (f : α → β)
    (a : Option α) : optional column o n (a.map f) = optional column o n a := by
  cases a <;> rfl

/-! ### Arguments in their places -/

section

variable {A E ρ : Type}

/-- A condition with its argument. -/
inductive Bound (A : Type) where
  | compare (column : List Char) (o : Op) (a : A)
  | constant (a b : Nat)

/-- A statement with its arguments. -/
structure Statement (A : Type) where
  columns : List (List Char)
  table : List Char
  conds : List (Bound A)
  orderBy : List Char
  desc : Bool
  limit : Option A
  offset : Option A

def Cond.resolve (args : List A) : Cond → Option (Bound A)
  | .compare c o n => args[n - 1]?.map (.compare c o)
  | .constant a b => some (.constant a b)

def resolve? (args : List A) : Option Nat → Option (Option A)
  | none => some none
  | some n => args[n - 1]?.map some

def Select.resolve (args : List A) (s : Select) : Option (Statement A) := do
  let conds ← s.conds.mapM (Cond.resolve args)
  let limit ← resolve? args s.limit
  let offset ← resolve? args s.offset
  some { columns := s.columns, table := s.table, conds, orderBy := s.orderBy, desc := s.desc,
         limit, offset }

/-- Every parameter has an argument, and every argument is one. -/
def Matched (ns : List Nat) (count : Nat) : Bool :=
  ns.all (fun n => 1 ≤ n && n ≤ count) && (List.range' 1 count).all fun n => ns.contains n

/-- The statement that a text and its arguments make. -/
def read (text : List Char) (args : List A) : Option (Statement A) :=
  match parse (lex text) with
  | none => none
  | some s => if Matched (params (lex text)) args.length then s.resolve args else none

theorem Query.Numbered.matched {q : Query A} (h : q.Numbered) :
    Matched (params (lex q.text)) q.args.length = true := by
  rw [h, Matched, Bool.and_eq_true, List.all_eq_true, List.all_eq_true]
  constructor
  · intro n hn
    simp only [List.mem_range'_1] at hn
    simp only [Bool.and_eq_true, decide_eq_true_eq]
    omega
  · intro n hn
    exact List.contains_iff_mem.mpr hn

theorem read_eq {q : Query A} {s : Select} (h : q.Numbered) (hlex : lex q.text = s.tokens)
    (hcolumns : s.columns ≠ []) (hconds : s.conds ≠ []) :
    read q.text q.args = s.resolve q.args := by
  have hparse : parse (lex q.text) = some s := hlex ▸ parse_tokens hcolumns hconds
  simp only [read, hparse, h.matched, if_true]

/-! ### Meaning -/

/-- A column of rows `ρ`: its operators for an argument, and its order. -/
structure Column (A E ρ : Type) where
  compare : Op → A → Option (Except E (ρ → Bool))
  le : Option (ρ → ρ → Bool)

structure Catalog (A E ρ : Type) where
  table : List Char
  column? : List Char → Option (Column A E ρ)
  /-- The number of rows that an argument of `LIMIT` or `OFFSET` means. -/
  count : A → Except E Nat

inductive Failure (E : Type) where
  | undefined
  | value (e : E)

/-- Which rows in which order, and which part of them. -/
structure Plan (ρ : Type) where
  keep : ρ → Bool
  le : ρ → ρ → Bool
  offset : Nat
  limit : Option Nat

def lift {α : Type} : Except E α → Except (Failure E) α
  | .ok a => .ok a
  | .error e => .error (.value e)

namespace Catalog

variable (C : Catalog A E ρ)

def keep : Bound A → Except (Failure E) (ρ → Bool)
  | .constant a b => .ok fun _ => a == b
  | .compare c o a =>
    match (C.column? c).bind fun column => column.compare o a with
    | some r => lift r
    | none => .error .undefined

def keepAll : List (Bound A) → Except (Failure E) (ρ → Bool)
  | [] => .ok fun _ => true
  | c :: cs => do
    let keep ← C.keep c
    let rest ← keepAll cs
    .ok fun r => keep r && rest r

def count? : Option A → Except (Failure E) (Option Nat)
  | none => .ok none
  | some a => (lift (C.count a)).map some

def plan (s : Statement A) : Except (Failure E) (Plan ρ) :=
  if s.table = C.table ∧ s.columns.all (fun c => (C.column? c).isSome) then
    match (C.column? s.orderBy).bind Column.le with
    | none => .error .undefined
    | some le => do
      let keep ← C.keepAll s.conds
      let limit ← C.count? s.limit
      let offset ← C.count? s.offset
      .ok { keep, le := fun a b => if s.desc then le b a else le a b
            offset := offset.getD 0, limit }
  else .error .undefined

/-- What a text and its arguments ask for. -/
def prepare (text : List Char) (args : List A) : Except (Failure E) (Plan ρ) :=
  match read text args with
  | none => .error .undefined
  | some s => C.plan s

/-- The row meets a condition that makes sense. -/
def Holds (c : Bound A) (r : ρ) : Prop := ∃ keep, C.keep c = .ok keep ∧ keep r = true

section

variable {C} {name : List Char} {o : Op} {a : A} {τ : Type} {x : Except E τ} {test : τ → ρ → Bool}
  (h : (C.column? name).bind (fun column => column.compare o a) = some (x.map test))
include h

theorem keep_compare_ok {v : τ} (hv : x = .ok v) : C.keep (.compare name o a) = .ok (test v) := by
  simp only [keep, h, hv]
  rfl

theorem keep_compare_error {e : E} (he : x = .error e) :
    C.keep (.compare name o a) = .error (.value e) := by
  simp only [keep, h, he]
  rfl

theorem keep_compare : (∃ keep, C.keep (.compare name o a) = .ok keep) ∨
    ∃ e, C.keep (.compare name o a) = .error (.value e) := by
  cases hx : x with
  | ok v => exact .inl ⟨_, keep_compare_ok h hx⟩
  | error e => exact .inr ⟨e, keep_compare_error h hx⟩

theorem keep_compare_iff : (∃ keep, C.keep (.compare name o a) = .ok keep) ↔ ∃ v, x = .ok v := by
  cases hx : x with
  | ok v => exact ⟨fun _ => ⟨v, rfl⟩, fun _ => ⟨_, keep_compare_ok h hx⟩⟩
  | error e =>
    rw [keep_compare_error h hx]
    exact ⟨fun ⟨_, heq⟩ => (nomatch heq), fun ⟨_, heq⟩ => (nomatch heq)⟩

theorem holds_compare (r : ρ) :
    C.Holds (.compare name o a) r ↔ ∃ v, x = .ok v ∧ test v r = true := by
  cases hx : x with
  | ok v =>
    have hkeep := keep_compare_ok h hx
    constructor
    · rintro ⟨keep, hsome, hr⟩
      rw [hkeep] at hsome
      cases hsome
      exact ⟨v, rfl, hr⟩
    · rintro ⟨w, hw, hr⟩
      cases hw
      exact ⟨_, hkeep, hr⟩
  | error e =>
    have hkeep := keep_compare_error h hx
    constructor
    · rintro ⟨keep, hsome, -⟩
      rw [hkeep] at hsome
      cases hsome
    · rintro ⟨w, hw, -⟩
      cases hw

end

theorem keepAll_ok {cs : List (Bound A)} (h : ∀ c ∈ cs, ∃ keep, C.keep c = .ok keep) :
    ∃ keep, C.keepAll cs = .ok keep ∧ ∀ r, keep r = true ↔ ∀ c ∈ cs, C.Holds c r := by
  induction cs with
  | nil => exact ⟨_, rfl, fun r => by simp⟩
  | cons c cs ih =>
    obtain ⟨first, hfirst⟩ := h c List.mem_cons_self
    obtain ⟨rest, hrest, hiff⟩ := ih fun d hd => h d (List.mem_cons_of_mem _ hd)
    refine ⟨fun r => first r && rest r, ?_, fun r => ?_⟩
    · rw [keepAll, hfirst, hrest]
      rfl
    · have hholds : C.Holds c r ↔ first r = true := by
        constructor
        · rintro ⟨keep, hkeep, hr⟩
          rw [hfirst] at hkeep
          cases hkeep
          exact hr
        · exact fun hr => ⟨first, hfirst, hr⟩
      rw [Bool.and_eq_true, List.forall_mem_cons, hholds, hiff]

/-- One argument that is no value of its column fails the statement. -/
theorem keepAll_error {cs : List (Bound A)}
    (h : ∀ c ∈ cs, (∃ keep, C.keep c = .ok keep) ∨ ∃ e, C.keep c = .error (.value e))
    {c : Bound A} (hc : c ∈ cs) {e : E} (he : C.keep c = .error (.value e)) :
    ∃ e, C.keepAll cs = .error (.value e) := by
  induction cs with
  | nil => cases hc
  | cons d cs ih =>
    rcases h d List.mem_cons_self with ⟨first, hfirst⟩ | ⟨e', hd⟩
    · have hmem : c ∈ cs := by
        rcases List.mem_cons.mp hc with rfl | hmem
        · rw [hfirst] at he
          cases he
        · exact hmem
      obtain ⟨e', hrest⟩ := ih (fun x hx => h x (List.mem_cons_of_mem _ hx)) hmem
      refine ⟨e', ?_⟩
      rw [keepAll, hfirst, hrest]
      rfl
    · refine ⟨e', ?_⟩
      rw [keepAll, hd]
      rfl

theorem plan_ok {s : Statement A} {le : ρ → ρ → Bool} {limit offset : Option Nat}
    (hcolumns : s.table = C.table ∧ s.columns.all (fun c => (C.column? c).isSome))
    (hle : (C.column? s.orderBy).bind Column.le = some le)
    (hlimit : C.count? s.limit = .ok limit) (hoffset : C.count? s.offset = .ok offset)
    (h : ∀ c ∈ s.conds, ∃ keep, C.keep c = .ok keep) :
    ∃ keep, (∀ r, keep r = true ↔ ∀ c ∈ s.conds, C.Holds c r) ∧
      C.plan s = .ok { keep, le := fun a b => if s.desc then le b a else le a b
                       offset := offset.getD 0, limit } := by
  obtain ⟨keep, hkeep, hiff⟩ := C.keepAll_ok h
  refine ⟨keep, hiff, ?_⟩
  rw [plan, if_pos hcolumns, hle]
  simp only [hkeep, hlimit, hoffset]
  rfl

/-- A statement fails if not all its arguments are values of their columns. -/
theorem plan_error {s : Statement A} {le : ρ → ρ → Bool}
    (hcolumns : s.table = C.table ∧ s.columns.all (fun c => (C.column? c).isSome))
    (hle : (C.column? s.orderBy).bind Column.le = some le)
    (h : ∀ c ∈ s.conds, (∃ keep, C.keep c = .ok keep) ∨ ∃ e, C.keep c = .error (.value e))
    (hnot : ¬∀ c ∈ s.conds, ∃ keep, C.keep c = .ok keep) : ∃ e, C.plan s = .error (.value e) := by
  obtain ⟨c, hc⟩ := Classical.not_forall.mp hnot
  obtain ⟨hmem, hkeep⟩ := Classical.not_imp.mp hc
  obtain ⟨e, he⟩ := (h c hmem).resolve_left hkeep
  obtain ⟨e', hall⟩ := C.keepAll_error h hmem he
  refine ⟨e', ?_⟩
  rw [plan, if_pos hcolumns, hle]
  simp only [hall]
  rfl

end Catalog

def Plan.window (p : Plan ρ) (sorted : List ρ) : List ρ :=
  match p.limit with
  | none => sorted.drop p.offset
  | some n => (sorted.drop p.offset).take n

/-- Rows with equal keys come in any order. -/
def Plan.Answers (p : Plan ρ) (rows out : List ρ) : Prop :=
  ∃ sorted : List ρ, sorted.Perm (rows.filter p.keep) ∧
    sorted.Pairwise (fun a b => p.le a b = true) ∧
    out = p.window sorted

end

end Sql
