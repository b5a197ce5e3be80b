import PaddingAudit.Json

/-!
# Tokens of a document

The characters of a JSON document are put together to tokens by a machine with a few modes: it is
between tokens, inside a string, or inside a number or word. The printed form of a value gives the
tokens of the value. Blanks and the breaks between lines leave no trace, a string comes back from
its escapes, and a number from its digits.
-/

namespace PaddingAudit.Json

inductive Token where
  | openArray
  | closeArray
  | openObject
  | closeObject
  | comma
  | colon
  | null
  | int (n : Int)
  | str (s : String)
  deriving DecidableEq, Repr

mutual

def tokens : Json → List Token
  | .null => [.null]
  | .int n => [.int n]
  | .str s => [.str s]
  | .arr [] => [.openArray, .closeArray]
  | .arr (item :: items) => .openArray :: tokens item ++ itemTokens items ++ [.closeArray]
  | .obj [] => [.openObject, .closeObject]
  | .obj ((key, value) :: members) =>
    .openObject :: .str key :: .colon :: tokens value ++ memberTokens members ++ [.closeObject]

def itemTokens : List Json → List Token
  | [] => []
  | item :: items => .comma :: tokens item ++ itemTokens items

def memberTokens : List (String × Json) → List Token
  | [] => []
  | (key, value) :: members =>
    .comma :: .str key :: .colon :: tokens value ++ memberTokens members

end

/-- The code units of a character: its code point, or a pair of surrogates. -/
def units (c : Char) : List Nat :=
  if c.toNat < 0x10000 then [c.toNat]
  else [0xD800 + (c.toNat - 0x10000) / 0x400, 0xDC00 + (c.toNat - 0x10000) % 0x400]

/-- The character of a pair of surrogates. -/
def ofPair? (high low : Nat) : Option Char :=
  if 0xD800 ≤ high ∧ high < 0xDC00 ∧ 0xDC00 ≤ low ∧ low < 0xE000 then
    some (Char.ofNat (0x10000 + 0x400 * (high - 0xD800) + (low - 0xDC00)))
  else none

/-- The characters of some code units. A unit that is no code point waits for the second one of a
pair. -/
def ofUnits : (waiting : Option Nat) → List Nat → Option (List Char)
  | none, [] => some []
  | some _, [] => none
  | none, unit :: us =>
    if unit.isValidChar then (ofUnits none us).map (Char.ofNat unit :: ·)
    else ofUnits (some unit) us
  | some high, low :: us => (ofPair? high low).bind fun c => (ofUnits none us).map (c :: ·)

theorem ofPair?_surrogates {c : Char} {n : Nat} (hc : c.toNat = 0x10000 + n) (hn : n < 0x100000) :
    ofPair? (0xD800 + n / 0x400) (0xDC00 + n % 0x400) = some c := by
  have hcode : 0x10000 + 0x400 * (0xD800 + n / 0x400 - 0xD800) + (0xDC00 + n % 0x400 - 0xDC00) =
      c.toNat := by omega
  rw [ofPair?, if_pos (by omega), hcode, Char.ofNat_toNat]

theorem ofUnits_units_append (c : Char) (us : List Nat) :
    ofUnits none (units c ++ us) = (ofUnits none us).map (c :: ·) := by
  have hvalid : c.toNat.isValidChar := c.valid
  unfold units
  split
  · rw [List.singleton_append, ofUnits, if_pos hvalid, Char.ofNat_toNat]
  · obtain ⟨n, hn⟩ : ∃ n, c.toNat = 0x10000 + n := ⟨c.toNat - 0x10000, by omega⟩
    have hlt : n < 0x100000 := by
      unfold Nat.isValidChar at hvalid
      omega
    have hhigh : ¬ (0xD800 + n / 0x400).isValidChar := by
      unfold Nat.isValidChar
      omega
    rw [hn, Nat.add_sub_cancel_left, List.cons_append, ofUnits, if_neg hhigh, List.cons_append,
      ofUnits, ofPair?_surrogates hn hlt]
    rfl

theorem ofUnits_flatMap (cs : List Char) : ofUnits none (cs.flatMap units) = some cs := by
  induction cs with
  | nil => rfl
  | cons c cs ih => rw [List.flatMap_cons, ofUnits_units_append, ih, Option.map_some]

/-! ### The machine -/

/-- Where a machine is that reads characters. `units` are those of the string so far. -/
inductive Mode where
  | between
  | string (units : List Nat)
  | escape (units : List Nat)
  | hex (units : List Nat) (left value : Nat)
  | number (negative : Bool) (digits : List Char)
  | word (left : List Char)

def hexValue? (c : Char) : Option Nat :=
  (List.range 16).find? fun d => Nat.digitChar d == c

/-- The code unit that a letter after a backslash stands for. -/
def shortEscape? : Char → Option Nat
  | '"' => some 0x22
  | '\\' => some 0x5C
  | '/' => some 0x2F
  | 'b' => some 0x08
  | 'f' => some 0x0C
  | 'n' => some 0x0A
  | 'r' => some 0x0D
  | 't' => some 0x09
  | _ => none

/-- The number of some digits, of which there has to be one. -/
def number? (negative : Bool) (digits : List Char) : Option Token :=
  if digits.isEmpty then none
  else
    let n : Int := Nat.ofDigitChars 10 digits 0
    some (.int (if negative then -n else n))

namespace Mode

/-- What a character between tokens comes to: tokens that are complete, and the next mode. -/
def start (c : Char) : Option (List Token × Mode) :=
  if c.isDigit then some ([], .number false [c])
  else
    match c with
    | ' ' | '\n' | '\r' | '\t' => some ([], .between)
    | '[' => some ([.openArray], .between)
    | ']' => some ([.closeArray], .between)
    | '\x7b' => some ([.openObject], .between)
    | '\x7d' => some ([.closeObject], .between)
    | ',' => some ([.comma], .between)
    | ':' => some ([.colon], .between)
    | '"' => some ([], .string [])
    | '-' => some ([], .number true [])
    | 'n' => some ([], .word ['u', 'l', 'l'])
    | _ => none

/-- What the next character comes to. A number ends where its digits do. -/
def step : Mode → Char → Option (List Token × Mode)
  | .between, c => start c
  | .string us, c =>
    if c = '"' then (ofUnits none us).map fun cs => ([.str (String.ofList cs)], .between)
    else if c = '\\' then some ([], .escape us)
    else some ([], .string (us ++ [c.toNat]))
  | .escape us, c =>
    if c = 'u' then some ([], .hex us 4 0)
    else (shortEscape? c).map fun unit => ([], .string (us ++ [unit]))
  | .hex us left value, c =>
    (hexValue? c).map fun d =>
      let next := 16 * value + d
      ([], if left = 1 then .string (us ++ [next]) else .hex us (left - 1) next)
  | .number negative digits, c =>
    if c.isDigit then some ([], .number negative (digits ++ [c]))
    else do
      let token ← number? negative digits
      let (ts, m) ← start c
      return (token :: ts, m)
  | .word (next :: left), c =>
    if c = next then some (if left.isEmpty then ([.null], .between) else ([], .word left)) else none
  | .word [], _ => none

/-- The tokens that are complete at the end of a document. -/
def finish : Mode → Option (List Token)
  | .between => some []
  | .number negative digits => (number? negative digits).map fun token => [token]
  | _ => none

end Mode

def lex : Mode → List Char → Option (List Token)
  | m, [] => m.finish
  | m, c :: cs => (m.step c).bind fun (ts, next) => (lex next cs).map (ts ++ ·)

theorem lex_cons {m next : Mode} {c : Char} {ts : List Token} (h : m.step c = some (ts, next))
    (cs : List Char) : lex m (c :: cs) = (lex next cs).map (ts ++ ·) := by
  rw [lex, h]
  rfl

theorem lex_cons_nil {m next : Mode} {c : Char} (h : m.step c = some ([], next))
    (cs : List Char) : lex m (c :: cs) = lex next cs := by
  rw [lex_cons h]
  exact Option.map_id' ..

theorem units_of_lt {c : Char} (h : c.toNat < 0x10000) : units c = [c.toNat] :=
  if_pos h

theorem lt_of_mem_units {c : Char} {unit : Nat} (h : unit ∈ units c) : unit < 0x10000 := by
  have hvalid : c.toNat.isValidChar := c.valid
  unfold Nat.isValidChar at hvalid
  unfold units at h
  split at h
  · rw [List.mem_singleton.1 h]
    omega
  · simp only [List.mem_cons, List.not_mem_nil, or_false] at h
    omega

/-- How a character may stand inside a string: as a backslash and a letter, as itself, or as the
escapes of its code units. -/
inductive Escaped (c : Char) : List Char → Prop where
  | letter {letter : Char} (hne : letter ≠ 'u') (h : shortEscape? letter = some c.toNat) :
      Escaped c ['\\', letter]
  | itself (hquote : c ≠ '"') (hback : c ≠ '\\') (hle : 0x20 ≤ c.toNat) (hlt : c.toNat < 0x7F) :
      Escaped c [c]
  | units : Escaped c ((units c).flatMap escapeUnit)

theorem escaped_escapeChar (c : Char) : Escaped c (escapeChar c) := by
  unfold escapeChar
  split
  · rename_i h
    exact .letter (by decide) (by rw [eq_of_beq h]; rfl)
  split
  · rename_i h
    exact .letter (by decide) (by rw [eq_of_beq h]; rfl)
  split
  · rename_i h
    exact .letter (by decide) (by rw [eq_of_beq h]; rfl)
  split
  · rename_i h
    exact .letter (by decide) (by rw [eq_of_beq h]; rfl)
  split
  · rename_i h
    exact .letter (by decide) (by rw [eq_of_beq h]; rfl)
  split
  · rename_i h
    exact .letter (by decide) (by rw [eq_of_beq h]; rfl)
  split
  · rename_i h
    exact .letter (by decide) (by rw [eq_of_beq h]; rfl)
  split
  · rename_i hquote hback _ _ _ _ _ hplain
    simp only [Bool.and_eq_true, decide_eq_true_eq] at hplain
    exact .itself (by simpa using hquote) (by simpa using hback) hplain.1 hplain.2
  split
  · rename_i hbasic
    simpa [Json.units, hbasic] using Escaped.units (c := c)
  · rename_i hbasic
    simpa [Json.units, hbasic] using Escaped.units (c := c)

theorem shortEscape?_lt {letter : Char} {unit : Nat} (h : shortEscape? letter = some unit) :
    unit < 0x80 := by
  unfold shortEscape? at h
  split at h <;> cases h <;> decide

theorem hexValue?_digitChar {d : Nat} (h : d < 16) : hexValue? (Nat.digitChar d) = some d := by
  have hall : ∀ d : Fin 16, hexValue? (Nat.digitChar d) = some d.val := by decide
  exact hall ⟨d, h⟩

theorem lex_hexDigit (us : List Nat) {left value d : Nat} (hd : d < 16) (hleft : left ≠ 1)
    (rest : List Char) :
    lex (.hex us left value) (Nat.digitChar d :: rest) =
      lex (.hex us (left - 1) (16 * value + d)) rest := by
  refine lex_cons_nil ?_ rest
  simp [Mode.step, hexValue?_digitChar hd, hleft]

theorem lex_lastHexDigit (us : List Nat) {value d : Nat} (hd : d < 16) (rest : List Char) :
    lex (.hex us 1 value) (Nat.digitChar d :: rest) =
      lex (.string (us ++ [16 * value + d])) rest := by
  refine lex_cons_nil ?_ rest
  simp [Mode.step, hexValue?_digitChar hd]

theorem lex_escapeUnit (us : List Nat) {unit : Nat} (h : unit < 0x10000) (rest : List Char) :
    lex (.string us) (escapeUnit unit ++ rest) = lex (.string (us ++ [unit])) rest := by
  have hmod : ∀ n, n % 16 < 16 := fun n => Nat.mod_lt n (by decide)
  have hdigits : escapeUnit unit ++ rest = '\\' :: 'u' ::
      Nat.digitChar (unit / 16 / 16 / 16 % 16) :: Nat.digitChar (unit / 16 / 16 % 16) ::
      Nat.digitChar (unit / 16 % 16) :: Nat.digitChar (unit % 16) :: rest := rfl
  have hvalue : 16 * (16 * (16 * (16 * 0 + unit / 16 / 16 / 16 % 16) + unit / 16 / 16 % 16) +
      unit / 16 % 16) + unit % 16 = unit := by omega
  rw [hdigits, lex_cons_nil rfl, lex_cons_nil rfl, lex_hexDigit us (hmod _) (by decide),
    lex_hexDigit us (hmod _) (by decide), lex_hexDigit us (hmod _) (by decide),
    lex_lastHexDigit us (hmod _), hvalue]

theorem lex_shortEscape (us : List Nat) {c : Char} {unit : Nat} (hc : c ≠ 'u')
    (h : shortEscape? c = some unit) (rest : List Char) :
    lex (.string us) ('\\' :: c :: rest) = lex (.string (us ++ [unit])) rest := by
  rw [lex_cons_nil rfl]
  refine lex_cons_nil ?_ rest
  simp [Mode.step, hc, h]

theorem lex_flatMap_escapeUnit (us : List Nat) {codes : List Nat}
    (h : ∀ unit ∈ codes, unit < 0x10000) (rest : List Char) :
    lex (.string us) (codes.flatMap escapeUnit ++ rest) = lex (.string (us ++ codes)) rest := by
  induction codes generalizing us with
  | nil => simp
  | cons unit codes ih =>
    rw [List.forall_mem_cons] at h
    rw [List.flatMap_cons, List.append_assoc, lex_escapeUnit us h.1, ih _ h.2, List.append_assoc,
      List.singleton_append]

/-- A character that was escaped comes back as its code units. -/
theorem lex_escapeChar (us : List Nat) (c : Char) (rest : List Char) :
    lex (.string us) (escapeChar c ++ rest) = lex (.string (us ++ units c)) rest := by
  have hescaped := escaped_escapeChar c
  generalize escapeChar c = es at hescaped
  cases hescaped with
  | letter hne h =>
    have hlt := shortEscape?_lt h
    rw [units_of_lt (by omega)]
    exact lex_shortEscape us hne h rest
  | itself hquote hback hle hlt =>
    rw [units_of_lt (by omega)]
    refine lex_cons_nil ?_ rest
    simp [Mode.step, hquote, hback]
  | units => exact lex_flatMap_escapeUnit us (fun _ => lt_of_mem_units) rest

theorem lex_flatMap_escapeChar (us : List Nat) (cs rest : List Char) :
    lex (.string us) (cs.flatMap escapeChar ++ rest) =
      lex (.string (us ++ cs.flatMap units)) rest := by
  induction cs generalizing us with
  | nil => simp
  | cons c cs ih => simp [lex_escapeChar, ih]

theorem lex_quote (s : String) (rest : List Char) :
    lex .between (quote s ++ rest) = (lex .between rest).map (.str s :: ·) := by
  have hclose : (Mode.string (s.toList.flatMap units)).step '"' = some ([.str s], .between) := by
    simp [Mode.step, ofUnits_flatMap]
  have hchars : quote s ++ rest = '"' :: (s.toList.flatMap escapeChar ++ '"' :: rest) := by
    simp [quote]
  rw [hchars, lex_cons_nil rfl, lex_flatMap_escapeChar, List.nil_append, lex_cons hclose]
  rfl

/-- What follows is not a digit, and so a number ends here. -/
def Stops (rest : List Char) : Prop :=
  ∀ c, rest.head? = some c → c.isDigit = false

theorem stops_nil : Stops [] := by
  simp [Stops]

theorem stops_cons {c : Char} (h : c.isDigit = false) (cs : List Char) : Stops (c :: cs) := by
  simpa [Stops] using h

theorem lex_digits (negative : Bool) (digits : List Char) {cs : List Char}
    (h : ∀ c ∈ cs, c.isDigit) (rest : List Char) :
    lex (.number negative digits) (cs ++ rest) = lex (.number negative (digits ++ cs)) rest := by
  induction cs generalizing digits with
  | nil => simp
  | cons c cs ih =>
    rw [List.forall_mem_cons] at h
    have hstep : (Mode.number negative digits).step c =
        some ([], .number negative (digits ++ [c])) := if_pos h.1
    rw [List.cons_append, lex_cons_nil hstep, ih _ h.2, List.append_assoc, List.singleton_append]

/-- A number is complete where its digits end, and the next character is read as between tokens. -/
theorem lex_number {negative : Bool} {digits : List Char} {token : Token}
    (h : number? negative digits = some token) {rest : List Char} (hrest : Stops rest) :
    lex (.number negative digits) rest = (lex .between rest).map (token :: ·) := by
  cases rest with
  | nil => simp [lex, Mode.finish, h]
  | cons c cs =>
    -- The character after the digits is read only once, as if between tokens.
    have hc : c.isDigit = false := hrest c rfl
    cases hstart : Mode.start c with
    | none => simp [lex, Mode.step, hc, h, hstart]
    | some next =>
      obtain ⟨ts, m⟩ := next
      rw [lex_cons (m := .between) hstart]
      simp [lex, Mode.step, hc, h, hstart, Option.map_map, Function.comp_def]

theorem number?_toDigits (negative : Bool) (n : Nat) :
    number? negative (Nat.toDigits 10 n) = some (.int (if negative then -n else n)) := by
  have hne : (Nat.toDigits 10 n).isEmpty = false := by simp [Nat.toDigits_ne_nil]
  have hvalue : Nat.ofDigitChars 10 (Nat.toDigits 10 n) 0 = n :=
    Nat.ofDigitChars_toDigits (by decide) (by decide)
  simp only [number?, hne, hvalue, Bool.false_eq_true, if_false]

theorem isDigit_of_mem_toDigits {n : Nat} {c : Char} (h : c ∈ Nat.toDigits 10 n) : c.isDigit :=
  Nat.isDigit_of_mem_toDigits (by decide) (by decide) h

theorem lex_decimalChars (n : Int) {rest : List Char} (hrest : Stops rest) :
    lex .between (Text.decimalChars n ++ rest) = (lex .between rest).map (.int n :: ·) := by
  cases n with
  | ofNat n =>
    have hnumber := number?_toDigits false n
    have hdigits := fun c => isDigit_of_mem_toDigits (n := n) (c := c)
    rw [Text.decimalChars]
    cases hcs : Nat.toDigits 10 n with
    | nil => exact absurd hcs Nat.toDigits_ne_nil
    | cons c cs =>
      rw [hcs] at hnumber hdigits
      have hstart : Mode.between.step c = some ([], .number false [c]) :=
        if_pos (hdigits c (by simp))
      have hmore : ∀ c ∈ cs, c.isDigit := fun c hc => hdigits c (by simp [hc])
      rw [List.cons_append, lex_cons_nil hstart, lex_digits _ _ hmore]
      exact lex_number hnumber hrest
  | negSucc n =>
    rw [Text.decimalChars, List.cons_append, lex_cons_nil rfl,
      lex_digits _ _ fun _ => isDigit_of_mem_toDigits]
    exact lex_number (number?_toDigits true (n + 1)) hrest

/-! ### Values -/

theorem lex_newline (level : Nat) (rest : List Char) :
    lex .between (newline level ++ rest) = lex .between rest := by
  rw [newline, List.cons_append, lex_cons_nil rfl]
  induction 2 * level with
  | zero => rfl
  | succ n ih => rw [List.replicate_succ, List.cons_append, lex_cons_nil rfl, ih]

theorem stops_newline (level : Nat) (rest : List Char) : Stops (newline level ++ rest) :=
  stops_cons (by decide) _

theorem stops_itemChars (level : Nat) (items : List Json) {rest : List Char} (h : Stops rest) :
    Stops (itemChars level items ++ rest) := by
  cases items with
  | nil => exact h
  | cons item items => exact stops_cons (by decide) _

theorem stops_memberChars (level : Nat) (members : List (String × Json)) {rest : List Char}
    (h : Stops rest) : Stops (memberChars level members ++ rest) := by
  cases members with
  | nil => exact h
  | cons member members => exact stops_cons (by decide) _

theorem lex_mark {c : Char} {token : Token} (h : Mode.start c = some ([token], .between))
    (rest : List Char) : lex .between (c :: rest) = (lex .between rest).map (token :: ·) :=
  lex_cons (m := .between) h rest

theorem lex_key (key : String) (rest : List Char) :
    lex .between (quote key ++ ':' :: ' ' :: rest) =
      (lex .between rest).map (.str key :: .colon :: ·) := by
  rw [lex_quote, lex_mark rfl, lex_cons_nil rfl, Option.map_map]
  rfl

mutual

/-- The printed form of a value gives its tokens. -/
theorem lex_chars (level : Nat) (value : Json) {rest : List Char} (hrest : Stops rest) :
    lex .between (chars level value ++ rest) = (lex .between rest).map (value.tokens ++ ·) := by
  match value with
  | .null =>
    rw [chars, tokens]
    exact (lex_cons_nil rfl _).trans ((lex_cons_nil rfl _).trans
      ((lex_cons_nil rfl _).trans (lex_cons rfl rest)))
  | .int n => exact lex_decimalChars n hrest
  | .str s => exact lex_quote s rest
  | .arr [] =>
    rw [chars, List.cons_append, lex_mark rfl, List.cons_append, lex_mark rfl, Option.map_map]
    rfl
  | .arr (item :: items) =>
    -- After each item comes a comma or a break, so that a number among them is complete.
    have hend := stops_newline level (']' :: rest)
    simp only [chars, List.cons_append, List.append_assoc, List.nil_append]
    rw [lex_mark rfl, lex_newline, lex_chars _ item (stops_itemChars _ items hend),
      lex_itemChars _ items hend, lex_newline, lex_mark rfl]
    simp [tokens, Function.comp_def]
  | .obj [] =>
    rw [chars, List.cons_append, lex_mark rfl, List.cons_append, lex_mark rfl, Option.map_map]
    rfl
  | .obj ((key, value) :: members) =>
    have hend := stops_newline level ('\x7d' :: rest)
    simp only [chars, List.cons_append, List.append_assoc, List.nil_append]
    rw [lex_mark rfl, lex_newline, lex_key, lex_chars _ value (stops_memberChars _ members hend),
      lex_memberChars _ members hend, lex_newline, lex_mark rfl]
    simp [tokens, Function.comp_def]

theorem lex_itemChars (level : Nat) (items : List Json) {rest : List Char} (hrest : Stops rest) :
    lex .between (itemChars level items ++ rest) =
      (lex .between rest).map (itemTokens items ++ ·) := by
  match items with
  | [] => simp [itemChars, itemTokens]
  | item :: items =>
    simp only [itemChars, List.cons_append, List.append_assoc]
    rw [lex_mark rfl, lex_newline, lex_chars _ item (stops_itemChars _ items hrest),
      lex_itemChars _ items hrest]
    simp [itemTokens, Function.comp_def]

theorem lex_memberChars (level : Nat) (members : List (String × Json)) {rest : List Char}
    (hrest : Stops rest) :
    lex .between (memberChars level members ++ rest) =
      (lex .between rest).map (memberTokens members ++ ·) := by
  match members with
  | [] => simp [memberChars, memberTokens]
  | (key, value) :: members =>
    simp only [memberChars, List.cons_append, List.append_assoc, List.nil_append]
    rw [lex_mark rfl, lex_newline, lex_key, lex_chars _ value (stops_memberChars _ members hrest),
      lex_memberChars _ members hrest]
    simp [memberTokens, Function.comp_def]

end

/-- A document gives the tokens of its value. -/
theorem lex_render (value : Json) : lex .between value.render.toList = some value.tokens := by
  have hchars := lex_chars 0 value stops_nil
  simpa [render, lex, Mode.finish] using hchars

end PaddingAudit.Json
