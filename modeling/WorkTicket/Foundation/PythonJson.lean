import WorkTicket.Foundation.Scanner

/-! Python's `json`: `loads` of a text, and `dumps` with its default arguments. -/

namespace WorkTicket.PythonJson

open WorkTicket.Scanner WorkTicket.Fallible

/-- What `loads` returns. A `str` is a list of code points, among which there can be lone
surrogates; a float is kept as its literal, a `dict` in the order of its keys. -/
inductive Value
  | null
  | bool (b : Bool)
  | int (n : ℤ)
  | float (literal : List Char)
  | nan
  | infinity (negative : Bool)
  | str (s : List ℕ)
  | arr (items : List Value)
  | obj (fields : List (List ℕ × Value))

/-- How the interpreter prints the float of a literal, and how many levels of nesting below the
first `loads` follows before a `RecursionError`. -/
structure Interpreter where
  floatRepr : List Char → List Char
  floatRepr_line : ∀ literal, '\n' ∉ floatRepr literal
  scanDepth : ℕ

abbrev Text := List Char

def isWhitespace (c : Char) : Bool := c = ' ' || c = '\t' || c = '\n' || c = '\r'

/-- A character that `strict` allows in a string: not a control character. -/
def next : Scan Char Char := satisfy fun c => 0x1f < c.toNat

def nextLexeme : Scan Char Char := lexeme isWhitespace

/-! ## Strings -/

def hexValue (c : Char) : Option ℕ :=
  if '0' ≤ c ∧ c ≤ '9' then some (c.toNat - '0'.toNat)
  else if 'a' ≤ c ∧ c ≤ 'f' then some (c.toNat - 'a'.toNat + 10)
  else if 'A' ≤ c ∧ c ≤ 'F' then some (c.toNat - 'A'.toNat + 10)
  else none

def hexDigit : Scan Char ℕ := do
  match hexValue (← next) with
  | some d => pure d
  | none => refuse

def escaped : Char → Option ℕ
  | '"' => some '"'.toNat
  | '\\' => some '\\'.toNat
  | '/' => some '/'.toNat
  | 'b' => some 8
  | 'f' => some 12
  | 'n' => some 10
  | 'r' => some 13
  | 't' => some 9
  | _ => none

def escape : Scan Char ℕ := do
  let e ← next
  if e = 'u' then
    let a ← hexDigit
    let b ← hexDigit
    let c ← hexDigit
    let d ← hexDigit
    pure (((a * 16 + b) * 16 + c) * 16 + d)
  else
    match escaped e with
    | some x => pure x
    | none => refuse

/-- What follows the units so far: the end, or one more. -/
def stringUnit (units : List ℕ) (c : Char) : Scan Char (List ℕ ⊕ List ℕ) := do
  if c = '"' then pure (.inr units)
  else if c = '\\' then
    let x ← escape
    pure (.inl (units ++ [x]))
  else pure (.inl (units ++ [c.toNat]))

def stringPart (units : List ℕ) : Scan Char (List ℕ ⊕ List ℕ) := do
  let c ← next
  stringUnit units c

def isHighSurrogate (x : ℕ) : Bool := 0xd800 ≤ x && x ≤ 0xdbff

def isLowSurrogate (x : ℕ) : Bool := 0xdc00 ≤ x && x ≤ 0xdfff

/-- A high and a low surrogate next to each other, which only escapes give, are one character. -/
def joinSurrogates : List ℕ → List ℕ
  | [] => []
  | [x] => [x]
  | x :: y :: rest =>
    if isHighSurrogate x && isLowSurrogate y then
      (0x10000 + (x - 0xd800) * 0x400 + (y - 0xdc00)) :: joinSurrogates rest
    else x :: joinSurrogates (y :: rest)

def scanString : Scan Char (List ℕ) := do
  let units ← forever stringPart []
  pure (joinSurrogates units)

/-! ## Numbers -/

/-- `sys.int_info.default_max_str_digits`. -/
def maxStrDigits : ℕ := 4300

def integerPart (c : Char) : Scan Char Text := do
  if c = '0' then pure ['0']
  else if c.isDigit then
    let digits ← span Char.isDigit
    pure (c :: digits)
  else refuse

/-- What follows a mark, if it is at least one digit. -/
def marked (mark : Text) (s : Text) : Option (Text × Text) :=
  if s.takeWhile Char.isDigit = [] then none
  else some (mark ++ s.takeWhile Char.isDigit, s.dropWhile Char.isDigit)

def fractionPart : Text → Option (Text × Text)
  | '.' :: rest => marked ['.'] rest
  | _ => none

def exponentPart : Text → Option (Text × Text)
  | e :: sign :: rest =>
    if e = 'e' ∨ e = 'E' then
      if sign = '-' ∨ sign = '+' then marked [e, sign] rest else marked [e] (sign :: rest)
    else none
  | _ => none

/-- `(\.\d+)?` -/
def fraction : Scan Char Text := option fractionPart []

/-- `([eE][-+]?\d+)?` -/
def exponent : Scan Char Text := option exponentPart []

def digitsValue (digits : Text) : ℕ :=
  digits.foldl (fun n c => n * 10 + (c.toNat - '0'.toNat)) 0

/-- `int(literal)`, or float. An `int` of too many digits is a `ValueError`. -/
def scanNumber (negative : Bool) (c : Char) : Scan Char Value := do
  let digits ← integerPart c
  let frac ← fraction
  let exp ← exponent
  if frac = [] ∧ exp = [] then
    if maxStrDigits < digits.length then raise
    else pure (.int (if negative then -digitsValue digits else digitsValue digits))
  else pure (.float ((if negative then ['-'] else []) ++ digits ++ frac ++ exp))

/-! ## Values -/

def literal : Text → Scan Char Unit
  | [] => pure ()
  | c :: rest => do
    let _ ← satisfy (· = c)
    literal rest

/-- The end of an array or object, or a comma and the first character of the next item. -/
def delimited {σ : Type} (close : Char) (items : σ) : Scan Char ((σ × Char) ⊕ σ) := do
  let delimiter ← nextLexeme
  if delimiter = close then pure (.inr items)
  else if delimiter = ',' then
    let c ← nextLexeme
    pure (.inl (items, c))
  else refuse

/-- One item of an array, from its first character on. -/
def arrayPart (value : Char → Scan Char Value) (x : List Value × Char) :
    Scan Char ((List Value × Char) ⊕ List Value) := do
  let item ← value x.2
  delimited ']' (x.1 ++ [item])

def scanArray (value : Char → Scan Char Value) : Scan Char Value := do
  let c ← nextLexeme
  if c = ']' then pure (.arr [])
  else
    let items ← forever (arrayPart value) ([], c)
    pure (.arr items)

/-- `dict[key] = item`: an old key keeps its place. -/
def setItem (key : List ℕ) (item : Value) : List (List ℕ × Value) → List (List ℕ × Value)
  | [] => [(key, item)]
  | (k, old) :: fields =>
    if k = key then (k, item) :: fields else (k, old) :: setItem key item fields

def objectPart (value : Char → Scan Char Value) (x : List (List ℕ × Value) × Char) :
    Scan Char ((List (List ℕ × Value) × Char) ⊕ List (List ℕ × Value)) := do
  if x.2 ≠ '"' then refuse
  else
    let key ← scanString
    let colon ← nextLexeme
    if colon ≠ ':' then refuse
    else
      let c ← nextLexeme
      let item ← value c
      delimited '}' (setItem key item x.1)

def scanObject (value : Char → Scan Char Value) : Scan Char Value := do
  let c ← nextLexeme
  if c = '}' then pure (.obj [])
  else
    let fields ← forever (objectPart value) ([], c)
    pure (.obj fields)

/-- The value that starts with a character, where the scanners for the rest of an array and of
an object are given. -/
def scanNext (array object : Scan Char Value) (c : Char) : Scan Char Value := do
  if c = '"' then
    let s ← scanString
    pure (.str s)
  else if c = '{' then object
  else if c = '[' then array
  else if c = 'n' then
    let _ ← literal ['u', 'l', 'l']
    pure .null
  else if c = 't' then
    let _ ← literal ['r', 'u', 'e']
    pure (.bool true)
  else if c = 'f' then
    let _ ← literal ['a', 'l', 's', 'e']
    pure (.bool false)
  else if c = 'N' then
    let _ ← literal ['a', 'N']
    pure .nan
  else if c = 'I' then
    let _ ← literal ['n', 'f', 'i', 'n', 'i', 't', 'y']
    pure (.infinity false)
  else if c = '-' then
    let c ← next
    if c = 'I' then
      let _ ← literal ['n', 'f', 'i', 'n', 'i', 't', 'y']
      pure (.infinity true)
    else scanNumber true c
  else scanNumber false c

/-- `scan_once`, with as many levels of nesting as the interpreter can still follow. -/
def scanOnce : ℕ → Char → Scan Char Value
  | 0 => scanNext raise raise
  | depth + 1 => scanNext (scanArray (scanOnce depth)) (scanObject (scanOnce depth))

def loads (python : Interpreter) (s : Text) : Except Failure Value :=
  if s.head? = some '\ufeff' then .error .refused
  else do
    let (value, rest) ← (nextLexeme >>= scanOnce (python.scanDepth + 1)) s
    if rest.all isWhitespace then .ok value else .error .refused

/-! ## `dumps` -/

def hexChars (x : ℕ) : Text :=
  ['\\', 'u', (x / 0x1000 % 16).digitChar, (x / 0x100 % 16).digitChar, (x / 0x10 % 16).digitChar,
    (x % 16).digitChar]

/-- With `ensure_ascii`, everything but printable ASCII is escaped. -/
def escapeUnit (x : ℕ) : Text :=
  if x = '"'.toNat then ['\\', '"']
  else if x = '\\'.toNat then ['\\', '\\']
  else if x = 8 then ['\\', 'b']
  else if x = 12 then ['\\', 'f']
  else if x = 10 then ['\\', 'n']
  else if x = 13 then ['\\', 'r']
  else if x = 9 then ['\\', 't']
  else if 0x20 ≤ x ∧ x ≤ 0x7e then [Char.ofNat x]
  else if x < 0x10000 then hexChars x
  else
    hexChars (0xd800 + (x - 0x10000) / 0x400 % 0x400) ++
      hexChars (0xdc00 + (x - 0x10000) % 0x400)

def quote (s : List ℕ) : Text := '"' :: s.flatMap escapeUnit ++ ['"']

def intRepr (n : ℤ) : Text := (if n < 0 then ['-'] else []) ++ Nat.toDigits 10 n.natAbs

mutual

def dumps (python : Interpreter) : Value → Text
  | .null => ['n', 'u', 'l', 'l']
  | .bool true => ['t', 'r', 'u', 'e']
  | .bool false => ['f', 'a', 'l', 's', 'e']
  | .int n => intRepr n
  | .float literal => python.floatRepr literal
  | .nan => ['N', 'a', 'N']
  | .infinity negative =>
    (if negative then ['-'] else []) ++ ['I', 'n', 'f', 'i', 'n', 'i', 't', 'y']
  | .str s => quote s
  | .arr items => '[' :: dumpsItems python items ++ [']']
  | .obj fields => '{' :: dumpsFields python fields ++ ['}']

def dumpsItems (python : Interpreter) : List Value → Text
  | [] => []
  | [v] => dumps python v
  | v :: w :: items => dumps python v ++ [',', ' '] ++ dumpsItems python (w :: items)

def dumpsFields (python : Interpreter) : List (List ℕ × Value) → Text
  | [] => []
  | [(k, v)] => quote k ++ [':', ' '] ++ dumps python v
  | (k, v) :: f :: fields =>
    quote k ++ [':', ' '] ++ dumps python v ++ [',', ' '] ++ dumpsFields python (f :: fields)

end

/-! ## A line feed behind a text -/

theorem next_steady : Steady '\n' next := .satisfy (by decide)

theorem nextLexeme_steady : Steady '\n' nextLexeme := .lexeme (by decide)

theorem hexDigit_steady : Steady '\n' hexDigit := by
  refine next_steady.bind fun c => ?_
  split
  · exact .pure _
  · exact .refuse

theorem escape_steady : Steady '\n' escape := by
  refine next_steady.bind fun e => .ite ?_ ?_
  · exact hexDigit_steady.bind fun a => hexDigit_steady.bind fun b =>
      hexDigit_steady.bind fun c => hexDigit_steady.bind fun d => .pure _
  · split
    · exact .pure _
    · exact .refuse

theorem stringUnit_steady (units : List ℕ) (c : Char) : Steady '\n' (stringUnit units c) :=
  .ite (.pure _) (.ite (escape_steady.bind fun _ => .pure _) (.pure _))

theorem scanString_steady : Steady '\n' scanString := by
  refine Steady.bind (.forever ?_ ?_ []) fun units => .pure _
  · exact fun units => next_steady.bind (stringUnit_steady units)
  · exact fun units => (consumes_satisfy _).bind (stringUnit_steady units)

theorem marked_snoc (mark s : Text) :
    marked mark (s ++ ['\n']) = (marked mark s).map fun x => (x.1, x.2 ++ ['\n']) := by
  have hw : Char.isDigit '\n' = false := by decide
  rw [marked, marked, takeWhile_snoc hw, dropWhile_snoc hw]
  split <;> rfl

theorem marked_shrinks {mark s : Text} {x : Text × Text} (h : marked mark s = some x) :
    x.2.length ≤ s.length := by
  unfold marked at h
  split at h
  · cases h
  · cases h
    exact (List.dropWhile_sublist Char.isDigit).length_le

theorem fraction_steady : Steady '\n' fraction := by
  refine .option ?_ ?_
  · intro s x h
    unfold fractionPart at h
    split at h
    · exact (marked_shrinks h).trans (Nat.le_succ _)
    · cases h
  · intro s
    cases s with
    | nil => rfl
    | cons c s =>
      by_cases hc : c = '.'
      · subst hc
        exact marked_snoc ['.'] s
      · simp [fractionPart, hc]

theorem exponent_steady : Steady '\n' exponent := by
  refine .option ?_ ?_
  · intro s x h
    unfold exponentPart at h
    split at h
    · split at h
      · split at h
        · exact (marked_shrinks h).trans (Nat.le_add_right _ 2)
        · exact (marked_shrinks h).trans (Nat.le_succ _)
      · cases h
    · cases h
  · intro s
    rcases s with _ | ⟨e, _ | ⟨sign, rest⟩⟩
    · rfl
    · simp [exponentPart, marked, Char.isDigit]
    · simp only [exponentPart, List.cons_append]
      split
      · split
        · exact marked_snoc [e, sign] rest
        · exact marked_snoc [e] (sign :: rest)
      · rfl

theorem integerPart_steady (c : Char) : Steady '\n' (integerPart c) :=
  .ite (.pure _) (.ite ((Steady.span (by decide)).bind fun _ => .pure _) .refuse)

theorem scanNumber_steady (negative : Bool) (c : Char) : Steady '\n' (scanNumber negative c) :=
  (integerPart_steady c).bind fun _ => fraction_steady.bind fun _ =>
    exponent_steady.bind fun _ => .ite (.ite .raise (.pure _)) (.pure _)

theorem literal_steady {rest : Text} (h : '\n' ∉ rest) : Steady '\n' (literal rest) := by
  induction rest with
  | nil => exact .pure _
  | cons c rest ih =>
    rw [List.mem_cons, not_or] at h
    exact (Steady.satisfy (by simpa using h.1)).bind fun _ => ih h.2

theorem delimited_steady {σ : Type} (close : Char) (items : σ) :
    Steady '\n' (delimited close items) :=
  nextLexeme_steady.bind fun _ =>
    .ite (.pure _) (.ite (nextLexeme_steady.bind fun _ => .pure _) .refuse)

theorem consumes_delimited {σ : Type} (close : Char) (items : σ) :
    Consumes (delimited close items) :=
  (consumes_lexeme _).bind fun _ =>
    .ite (.pure _) (.ite (nextLexeme_steady.bind fun _ => .pure _) .refuse)

variable {value : Char → Scan Char Value}

theorem scanArray_steady (hvalue : ∀ c, Steady '\n' (value c)) :
    Steady '\n' (scanArray value) := by
  refine nextLexeme_steady.bind fun c => .ite (.pure _) (.bind (.forever ?_ ?_ _) fun _ => .pure _)
  · exact fun x => (hvalue x.2).bind fun item => delimited_steady _ _
  · exact fun x => (hvalue x.2).bind_consumes fun item => consumes_delimited _ _

theorem objectPart_steady (hvalue : ∀ c, Steady '\n' (value c))
    (x : List (List ℕ × Value) × Char) : Steady '\n' (objectPart value x) :=
  .ite .refuse (scanString_steady.bind fun _ => nextLexeme_steady.bind fun _ =>
    .ite .refuse (nextLexeme_steady.bind fun c => (hvalue c).bind fun _ => delimited_steady _ _))

theorem consumes_objectPart (hvalue : ∀ c, Steady '\n' (value c))
    (x : List (List ℕ × Value) × Char) : Consumes (objectPart value x) := by
  unfold objectPart
  split
  · exact consumes_refuse
  · exact scanString_steady.bind_consumes fun _ => (consumes_lexeme _).bind fun _ =>
      .ite .refuse (nextLexeme_steady.bind fun c => (hvalue c).bind fun _ => delimited_steady _ _)

theorem scanObject_steady (hvalue : ∀ c, Steady '\n' (value c)) :
    Steady '\n' (scanObject value) := by
  refine nextLexeme_steady.bind fun c => .ite (.pure _) (.bind (.forever ?_ ?_ _) fun _ => .pure _)
  · exact objectPart_steady hvalue
  · exact consumes_objectPart hvalue

theorem scanNext_steady {array object : Scan Char Value} (harray : Steady '\n' array)
    (hobject : Steady '\n' object) (c : Char) : Steady '\n' (scanNext array object c) := by
  have hword : ∀ (rest : Text) (v : Value), '\n' ∉ rest →
      Steady '\n' (literal rest >>= fun _ => pure v) :=
    fun rest v h => (literal_steady h).bind fun _ => .pure v
  refine .ite (scanString_steady.bind fun _ => .pure _) (.ite hobject (.ite harray ?_))
  refine .ite (hword _ _ (by decide)) (.ite (hword _ _ (by decide)) ?_)
  refine .ite (hword _ _ (by decide)) (.ite (hword _ _ (by decide)) ?_)
  refine .ite (hword _ _ (by decide)) (.ite ?_ (scanNumber_steady false c))
  exact next_steady.bind fun d => .ite (hword _ _ (by decide)) (scanNumber_steady true d)

theorem scanOnce_steady (depth : ℕ) (c : Char) : Steady '\n' (scanOnce depth c) := by
  induction depth generalizing c with
  | zero => exact scanNext_steady .raise .raise c
  | succ depth ih => exact scanNext_steady (scanArray_steady ih) (scanObject_steady ih) c

variable {python : Interpreter}

/-- A line feed behind a JSON text does not matter. -/
theorem loads_of_snoc {s : Text} {v : Value} (h : loads python (s ++ ['\n']) = .ok v) :
    loads python s = .ok v := by
  unfold loads at h ⊢
  split at h
  · cases h
  · rename_i hbom
    obtain ⟨⟨value, rest⟩, hscan, hrest⟩ := bind_eq_ok.mp h
    obtain ⟨t, rfl, ht⟩ :=
      (nextLexeme_steady.bind (scanOnce_steady (python.scanDepth + 1))).ignores s value rest hscan
    have hbom' : s.head? ≠ some '\ufeff' := by
      intro hs
      exact hbom (by simp [List.head?_append, hs])
    rw [if_neg hbom']
    refine bind_eq_ok.mpr ⟨(value, t), ht, ?_⟩
    simpa [isWhitespace] using hrest

/-! ## Single characters -/

theorem scanNumber_digit (negative : Bool) {c : Char} (hc : c.isDigit) :
    scanNumber negative c [] =
      .ok (.int (if negative then -digitsValue [c] else digitsValue [c]), []) := by
  have hpart : integerPart c [] = .ok ([c], []) := by
    by_cases hzero : c = '0'
    · subst hzero
      rfl
    · rw [integerPart, if_neg hzero, if_pos hc]
      rfl
  exact scan_bind_eq_ok.mpr ⟨[c], [], hpart, rfl⟩

theorem scanNumber_refused {c : Char} (hc : ¬c.isDigit) :
    scanNumber false c [] = .error .refused := by
  have hzero : c ≠ '0' := by
    rintro rfl
    exact hc rfl
  have hpart : integerPart c = refuse := by rw [integerPart, if_neg hzero, if_neg hc]
  rw [scanNumber, hpart]
  rfl

theorem ne_of_isDigit {c d : Char} (hc : c.isDigit) (hd : d.isDigit = false) : c ≠ d := by
  rintro rfl
  exact absurd hc (by simp [hd])

theorem scanNext_digit (array object : Scan Char Value) {c : Char} (hc : c.isDigit) :
    scanNext array object c [] = .ok (.int (digitsValue [c]), []) := by
  have hne : ∀ d : Char, d.isDigit = false → c ≠ d := fun d => ne_of_isDigit hc
  simp only [scanNext, if_neg (hne '"' rfl), if_neg (hne '{' rfl), if_neg (hne '[' rfl),
    if_neg (hne 'n' rfl), if_neg (hne 't' rfl), if_neg (hne 'f' rfl), if_neg (hne 'N' rfl),
    if_neg (hne 'I' rfl), if_neg (hne '-' rfl)]
  exact scanNumber_digit false hc

def RefusesEnd (f : Scan Char Value) : Prop := f [] = .error .refused

theorem RefusesEnd.ite {c : Prop} [Decidable c] {f g : Scan Char Value} (hf : RefusesEnd f)
    (hg : RefusesEnd g) : RefusesEnd (if c then f else g) := by
  split
  · exact hf
  · exact hg

theorem scanNext_refused {array object : Scan Char Value} {c : Char} (hc : ¬c.isDigit)
    (harray : RefusesEnd array) (hobject : RefusesEnd object) :
    RefusesEnd (scanNext array object c) := by
  refine .ite rfl (.ite hobject (.ite harray ?_))
  exact .ite rfl (.ite rfl (.ite rfl (.ite rfl (.ite rfl (.ite rfl (scanNumber_refused hc))))))

theorem nextLexeme_singleton (c : Char) :
    nextLexeme [c] = if isWhitespace c then .error .refused else .ok (c, []) := by
  rw [nextLexeme, lexeme, List.dropWhile_cons]
  cases isWhitespace c with
  | false => rfl
  | true => rfl

theorem loads_digit (python : Interpreter) {c : Char} (hc : c.isDigit) :
    loads python [c] = .ok (.int (digitsValue [c])) := by
  have hbom : [c].head? ≠ some '\ufeff' := by
    intro h
    cases h
    exact absurd hc (by decide)
  have hne : ∀ d : Char, d.isDigit = false → c ≠ d := fun d => ne_of_isDigit hc
  have hspace : isWhitespace c = false := by
    simp [isWhitespace, hne ' ' rfl, hne '\t' rfl, hne '\n' rfl, hne '\r' rfl]
  have hscan : (nextLexeme >>= scanOnce (python.scanDepth + 1)) [c] =
      .ok (.int (digitsValue [c]), []) :=
    scan_bind_eq_ok.mpr ⟨c, [], by rw [nextLexeme_singleton, hspace]; rfl, scanNext_digit _ _ hc⟩
  rw [loads, if_neg hbom, hscan]
  rfl

theorem loads_negative_digit (python : Interpreter) {c : Char} (hc : c.isDigit) :
    loads python ['-', c] = .ok (.int (-digitsValue [c])) := by
  have hbounds : 48 ≤ c.toNat ∧ c.toNat ≤ 57 := Char.isDigit_iff_toNat.mp hc
  have hnext : next [c] = .ok (c, []) := if_pos (by simp; omega)
  have hvalue : scanOnce (python.scanDepth + 1) '-' [c] = .ok (.int (-digitsValue [c]), []) := by
    refine scan_bind_eq_ok.mpr ⟨c, [], hnext, ?_⟩
    rw [if_neg (ne_of_isDigit hc rfl)]
    exact scanNumber_digit true hc
  have hscan : (nextLexeme >>= scanOnce (python.scanDepth + 1)) ['-', c] =
      .ok (.int (-digitsValue [c]), []) :=
    scan_bind_eq_ok.mpr ⟨'-', [c], rfl, hvalue⟩
  rw [loads, if_neg (by simp), hscan]
  rfl

theorem loads_refused (python : Interpreter) {c : Char} (hc : ¬c.isDigit) :
    loads python [c] = .error .refused := by
  have hscan : (nextLexeme >>= scanOnce (python.scanDepth + 1)) [c] = .error .refused := by
    change Except.bind (nextLexeme [c]) _ = _
    rw [nextLexeme_singleton]
    split
    · rfl
    · exact scanNext_refused hc rfl rfl
  rw [loads, hscan]
  split
  · rfl
  · rfl

/-! ## One line -/

theorem digitChar_ne_lineFeed : ∀ d : ℕ, d < 16 → '\n' ≠ d.digitChar := by decide

theorem hexChars_line (x : ℕ) : '\n' ∉ hexChars x := by
  have hdigit : ∀ y : ℕ, '\n' ≠ (y % 16).digitChar := fun y =>
    digitChar_ne_lineFeed _ (Nat.mod_lt y (by decide))
  simp [hexChars, hdigit]

theorem ite_line {p : Prop} [Decidable p] {s t : Text} (hs : '\n' ∉ s) (ht : '\n' ∉ t) :
    '\n' ∉ (if p then s else t) := by
  split
  · exact hs
  · exact ht

theorem printable_line {x : ℕ} (h : 0x20 ≤ x ∧ x ≤ 0x7e) : '\n' ∉ [Char.ofNat x] := by
  rw [List.mem_singleton]
  intro hx
  have hten : '\n'.toNat = x := by
    rw [hx, Char.toNat_ofNat, if_pos (.inl (by omega))]
  simp at hten
  omega

theorem escapeUnit_line (x : ℕ) : '\n' ∉ escapeUnit x := by
  refine ite_line (by decide) (ite_line (by decide) (ite_line (by decide) ?_))
  refine ite_line (by decide) (ite_line (by decide) (ite_line (by decide) ?_))
  refine ite_line (by decide) ?_
  split
  · rename_i hprintable
    exact printable_line hprintable
  · refine ite_line (hexChars_line x) ?_
    exact List.mem_append.not.mpr (not_or.mpr ⟨hexChars_line _, hexChars_line _⟩)

theorem quote_line (s : List ℕ) : '\n' ∉ quote s := by
  simp [quote, escapeUnit_line]

theorem intRepr_line (n : ℤ) : '\n' ∉ intRepr n := by
  intro h
  rcases List.mem_append.mp h with hsign | hdigits
  · split at hsign
    · exact absurd hsign (by decide)
    · exact absurd hsign (by decide)
  · exact absurd (Nat.isDigit_of_mem_toDigits (by decide) (by decide) hdigits) (by decide)

mutual

theorem dumps_line (v : Value) : '\n' ∉ dumps python v := by
  cases v with
  | null => simp [dumps]
  | bool b => cases b <;> simp [dumps]
  | int n => exact intRepr_line n
  | float literal => exact python.floatRepr_line literal
  | nan => simp [dumps]
  | infinity negative => cases negative <;> simp [dumps]
  | str s => exact quote_line s
  | arr items => simpa [dumps] using dumpsItems_line items
  | obj fields => simpa [dumps] using dumpsFields_line fields

theorem dumpsItems_line (items : List Value) : '\n' ∉ dumpsItems python items := by
  match items with
  | [] => exact List.not_mem_nil
  | [v] => exact dumps_line v
  | v :: w :: items =>
    have hv := dumps_line v
    have hitems := dumpsItems_line (w :: items)
    simp [dumpsItems, hv, hitems]

theorem dumpsFields_line (fields : List (List ℕ × Value)) :
    '\n' ∉ dumpsFields python fields := by
  match fields with
  | [] => exact List.not_mem_nil
  | [(k, v)] =>
    have hv := dumps_line v
    simp [dumpsFields, hv, quote_line]
  | (k, v) :: f :: fields =>
    have hv := dumps_line v
    have hfields := dumpsFields_line (f :: fields)
    simp [dumpsFields, hv, hfields, quote_line]

end

/-! ## The digits of a text -/

theorem toDigits_digitsValue {c : Char} (hc : c.isDigit) :
    Nat.toDigits 10 (digitsValue [c]) = [c] := by
  have hbounds : 48 ≤ c.toNat ∧ c.toNat ≤ 57 := Char.isDigit_iff_toNat.mp hc
  have hvalue : digitsValue [c] = c.toNat - 48 := by simp [digitsValue]
  have hchar : (c.toNat - 48).digitChar = c := by
    apply Char.toNat_inj.mp
    rw [Nat.toNat_digitChar_of_lt_ten (by omega)]
    omega
  rw [hvalue, Nat.toDigits_of_lt_base (by omega), hchar]

theorem intRepr_digit {c : Char} (hc : c.isDigit) : intRepr (digitsValue [c]) = [c] := by
  rw [intRepr, Int.natAbs_natCast, toDigits_digitsValue hc, if_neg (by omega)]
  rfl

theorem intRepr_negative_digit {c : Char} (hc : c.isDigit) (hzero : c ≠ '0') :
    intRepr (-digitsValue [c]) = ['-', c] := by
  have hbounds : 48 ≤ c.toNat ∧ c.toNat ≤ 57 := Char.isDigit_iff_toNat.mp hc
  have hne : c.toNat ≠ 48 := fun h => hzero (Char.toNat_inj.mp h)
  have hpos : 0 < digitsValue [c] := by
    simp [digitsValue]
    omega
  rw [intRepr, Int.natAbs_neg, Int.natAbs_natCast, toDigits_digitsValue hc, if_pos (by omega)]
  rfl

theorem marked_eq {mark s : Text} {x : Text × Text} (h : marked mark s = some x) :
    mark ++ s = x.1 ++ x.2 ∧ 0 < x.1.countP Char.isDigit := by
  unfold marked at h
  split at h
  · cases h
  · rename_i hsome
    cases h
    refine ⟨by simp, ?_⟩
    rw [List.countP_append]
    have hall : (s.takeWhile Char.isDigit).countP Char.isDigit =
        (s.takeWhile Char.isDigit).length :=
      List.countP_eq_length.mpr fun c hc => List.mem_takeWhile_imp hc
    have hlength := List.length_pos_iff.mpr hsome
    omega

theorem option_eq {f : Text → Option (Text × Text)} {s part r : Text}
    (hf : ∀ x, f s = some x → s = x.1 ++ x.2 ∧ 0 < x.1.countP Char.isDigit)
    (h : option f [] s = .ok (part, r)) :
    s = part ++ r ∧ (part ≠ [] → 0 < part.countP Char.isDigit) := by
  unfold option at h
  cases hx : f s with
  | none =>
    rw [hx] at h
    cases h
    exact ⟨rfl, fun hne => absurd rfl hne⟩
  | some x =>
    rw [hx] at h
    cases h
    obtain ⟨hs, hcount⟩ := hf _ hx
    exact ⟨hs, fun _ => hcount⟩

theorem fraction_eq {s part r : Text} (h : fraction s = .ok (part, r)) :
    s = part ++ r ∧ (part ≠ [] → 0 < part.countP Char.isDigit) := by
  refine option_eq (fun x hx => ?_) h
  unfold fractionPart at hx
  split at hx
  · exact marked_eq hx
  · cases hx

theorem exponent_eq {s part r : Text} (h : exponent s = .ok (part, r)) :
    s = part ++ r ∧ (part ≠ [] → 0 < part.countP Char.isDigit) := by
  refine option_eq (fun x hx => ?_) h
  unfold exponentPart at hx
  split at hx
  · split at hx
    · split at hx
      · exact marked_eq hx
      · exact marked_eq hx
    · cases hx
  · cases hx

theorem integerPart_eq {c : Char} {s digits r : Text} (h : integerPart c s = .ok (digits, r)) :
    c :: s = digits ++ r ∧ 0 < digits.countP Char.isDigit := by
  unfold integerPart at h
  split at h
  · rename_i hzero
    cases h
    exact ⟨by simp [hzero], by decide⟩
  · split at h
    · rename_i hc
      obtain ⟨tail, t, hspan, hpure⟩ := scan_bind_eq_ok.mp h
      cases hspan
      cases hpure
      exact ⟨by simp, by simp [hc]⟩
    · cases h

theorem scanNumber_float {negative : Bool} {c : Char} {s lit r : Text}
    (h : scanNumber negative c s = .ok (.float lit, r)) :
    2 ≤ (c :: s).countP Char.isDigit := by
  obtain ⟨digits, t, hdigits, hrest⟩ := scan_bind_eq_ok.mp h
  obtain ⟨frac, u, hfrac, hlast⟩ := scan_bind_eq_ok.mp hrest
  obtain ⟨exp, v, hexp, hvalue⟩ := scan_bind_eq_ok.mp hlast
  obtain ⟨hs, hcount⟩ := integerPart_eq hdigits
  obtain ⟨rfl, hfraction⟩ := fraction_eq hfrac
  obtain ⟨rfl, hexponent⟩ := exponent_eq hexp
  rw [hs]
  simp only [List.countP_append]
  by_cases hparts : frac = [] ∧ exp = []
  · rw [if_pos hparts] at hvalue
    by_cases hlong : maxStrDigits < digits.length
    · rw [if_pos hlong] at hvalue
      cases hvalue
    · rw [if_neg hlong] at hvalue
      cases hvalue
  · by_cases hnil : frac = []
    · have hpositive := hexponent fun hnone => hparts ⟨hnil, hnone⟩
      omega
    · have hpositive := hfraction hnil
      omega

def NoFloat (f : Scan Char Value) : Prop := ∀ s lit r, f s ≠ .ok (.float lit, r)

namespace NoFloat

theorem raise : NoFloat raise := by
  intro s lit r h
  cases h

theorem pure {v : Value} (hv : ∀ lit, v ≠ .float lit) : NoFloat (pure v) := by
  intro s lit r h
  injection h with hpair
  exact hv lit (congrArg Prod.fst hpair)

theorem bind {α : Type} {f : Scan Char α} {g : α → Scan Char Value} (hg : ∀ a, NoFloat (g a)) :
    NoFloat (f >>= g) := by
  intro s lit r h
  obtain ⟨a, t, -, hrest⟩ := scan_bind_eq_ok.mp h
  exact hg a t lit r hrest

theorem ite {p : Prop} [Decidable p] {f g : Scan Char Value} (hf : NoFloat f) (hg : NoFloat g) :
    NoFloat (if p then f else g) := by
  split
  · exact hf
  · exact hg

end NoFloat

theorem noFloat_scanArray (value : Char → Scan Char Value) : NoFloat (scanArray value) :=
  .bind fun _ => .ite (.pure (by simp)) (.bind fun _ => .pure (by simp))

theorem noFloat_scanObject (value : Char → Scan Char Value) : NoFloat (scanObject value) :=
  .bind fun _ => .ite (.pure (by simp)) (.bind fun _ => .pure (by simp))

/-- From a text whose first character was `c`, a float is read only if there are two digits. -/
def FloatDigits (c : Char) (f : Scan Char Value) : Prop :=
  ∀ s lit r, f s = .ok (.float lit, r) → 2 ≤ (c :: s).countP Char.isDigit

theorem NoFloat.floatDigits {f : Scan Char Value} (h : NoFloat f) (c : Char) : FloatDigits c f :=
  fun s lit r hf => absurd hf (h s lit r)

theorem FloatDigits.ite {c : Char} {p : Prop} [Decidable p] {f g : Scan Char Value}
    (hf : FloatDigits c f) (hg : FloatDigits c g) : FloatDigits c (if p then f else g) := by
  split
  · exact hf
  · exact hg

theorem floatDigits_literal (c : Char) (rest : Text) {v : Value} (hv : ∀ lit, v ≠ .float lit) :
    FloatDigits c (literal rest >>= fun _ => pure v) :=
  NoFloat.floatDigits (.bind fun _ => .pure hv) c

theorem floatDigits_negative : FloatDigits '-' (next >>= fun d =>
    if d = 'I' then literal ['n', 'f', 'i', 'n', 'i', 't', 'y'] >>= fun _ => pure (.infinity true)
    else scanNumber true d) := by
  intro s lit r h
  obtain ⟨d, t, hd, hrest⟩ := scan_bind_eq_ok.mp h
  rw [satisfy_eq_ok hd]
  have hnumber : FloatDigits d (scanNumber true d) := fun s lit r => scanNumber_float
  have htwo := (FloatDigits.ite (floatDigits_literal d _ (by simp)) hnumber) t lit r hrest
  rw [List.countP_cons]
  exact htwo.trans (Nat.le_add_right _ _)

theorem scanNext_float {array object : Scan Char Value} (harray : NoFloat array)
    (hobject : NoFloat object) (c : Char) : FloatDigits c (scanNext array object c) := by
  have hstring : NoFloat (scanString >>= fun s => pure (.str s)) :=
    .bind fun _ => .pure (by simp)
  refine .ite (hstring.floatDigits c) (.ite (hobject.floatDigits c) ?_)
  refine .ite (harray.floatDigits c) ?_
  refine .ite (floatDigits_literal c _ (by simp)) (.ite (floatDigits_literal c _ (by simp)) ?_)
  refine .ite (floatDigits_literal c _ (by simp)) (.ite (floatDigits_literal c _ (by simp)) ?_)
  refine .ite (floatDigits_literal c _ (by simp)) ?_
  split
  · rename_i hminus
    subst hminus
    exact floatDigits_negative
  · exact fun s lit r => scanNumber_float

theorem scanOnce_float {depth : ℕ} {c : Char} {s lit r : Text}
    (h : scanOnce depth c s = .ok (.float lit, r)) : 2 ≤ (c :: s).countP Char.isDigit := by
  cases depth with
  | zero => exact scanNext_float .raise .raise c s lit r h
  | succ depth => exact scanNext_float (noFloat_scanArray _) (noFloat_scanObject _) c s lit r h

/-- A float has two digits. -/
theorem loads_float {s lit : Text} (h : loads python s = .ok (.float lit)) :
    2 ≤ s.countP Char.isDigit := by
  unfold loads at h
  split at h
  · cases h
  · obtain ⟨⟨value, rest⟩, hscan, hrest⟩ := bind_eq_ok.mp h
    obtain ⟨c, t, hc, hvalue⟩ := scan_bind_eq_ok.mp hscan
    by_cases hspace : rest.all isWhitespace
    · simp only [hspace, if_true, Except.ok.injEq] at hrest
      have hcount := scanOnce_float (hrest ▸ hvalue)
      rw [← lexeme_eq_ok hc, List.countP_append]
      omega
    · simp [hspace] at hrest

theorem digitChar_ne_zero : ∀ k : ℕ, k < 10 → k ≠ 0 → k.digitChar ≠ '0' := by decide

theorem intRepr_single_digit {n : ℤ} {start : Text} {d : Char} (hn : intRepr n = start ++ [d])
    (hd : d.isDigit) (hstart : ∀ c ∈ start, ¬c.isDigit) :
    start = [] ∨ start = ['-'] ∧ d ≠ '0' := by
  have hcount := congrArg (List.countP Char.isDigit) hn
  have hdigits : (Nat.toDigits 10 n.natAbs).countP Char.isDigit =
      (Nat.toDigits 10 n.natAbs).length :=
    List.countP_eq_length.mpr fun c hc => Nat.isDigit_of_mem_toDigits (by decide) (by decide) hc
  have hnone : start.countP Char.isDigit = 0 := List.countP_eq_zero.mpr hstart
  simp only [intRepr, List.countP_append, hdigits, hnone, List.countP_singleton, hd, if_true]
    at hcount
  have hlength : (Nat.toDigits 10 n.natAbs).length ≤ 1 := by omega
  have hsmall : n.natAbs < 10 := (Nat.length_toDigits_le_iff (by decide) Nat.one_pos).mp hlength
  rw [intRepr, Nat.toDigits_of_lt_base hsmall] at hn
  obtain ⟨hsign, hlast⟩ := List.append_inj' hn rfl
  injection hlast with hlast
  split at hsign
  · rename_i hnegative
    refine .inr ⟨hsign.symm, ?_⟩
    rw [← hlast]
    exact digitChar_ne_zero _ hsmall (by omega)
  · exact .inl hsign.symm

/-- What is printed with its last character as its only digit is a number of one digit. -/
theorem dumps_single_digit {v : Value} (hfloat : ∀ lit, v ≠ .float lit) {start : Text} {d : Char}
    (hv : dumps python v = start ++ [d]) (hd : d.isDigit)
    (hstart : ∀ c ∈ start, ¬c.isDigit) : start = [] ∨ start = ['-'] ∧ d ≠ '0' := by
  have hlast : (dumps python v).getLast? = some d := by rw [hv, List.getLast?_concat]
  have hne : ∀ c : Char, c.isDigit = false → some c ≠ some d := by
    intro c hc h
    exact ne_of_isDigit hd hc (Option.some.inj h).symm
  cases v with
  | null => exact absurd hlast (by simpa [dumps] using hne 'l' rfl)
  | bool b => cases b <;> exact absurd hlast (by simpa [dumps] using hne 'e' rfl)
  | int n => exact intRepr_single_digit hv hd hstart
  | float lit => exact absurd rfl (hfloat lit)
  | nan => exact absurd hlast (by simpa [dumps] using hne 'N' rfl)
  | infinity negative => exact absurd hlast (by cases negative <;> simpa [dumps] using hne 'y' rfl)
  | str s =>
    rw [dumps, quote, List.getLast?_concat] at hlast
    exact absurd hlast (hne '"' rfl)
  | arr items =>
    rw [dumps, List.getLast?_concat] at hlast
    exact absurd hlast (hne ']' rfl)
  | obj fields =>
    rw [dumps, List.getLast?_concat] at hlast
    exact absurd hlast (hne '}' rfl)

end WorkTicket.PythonJson
