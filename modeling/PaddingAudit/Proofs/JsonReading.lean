import PaddingAudit.Proofs.JsonTokens

/-!
# Reading documents

Tokens are put together to a value by a machine that keeps the arrays and objects it is inside of.
Reading what was printed gives the value back, so that a document determines its value; and nothing
is printed but lines of printable ASCII characters.
-/

namespace PaddingAudit.Json

/-- An array or object that is not closed yet, with what has been read of it. The value of `key` is
still to come. -/
inductive Frame where
  | arr (items : List Json)
  | obj (members : List (String × Json)) (key : String)

/-- What a reader waits for: a value, the key of a member, the colon after a key, or what comes
after a value. -/
inductive Stage where
  | value
  | key (members : List (String × Json))
  | colon (members : List (String × Json)) (key : String)
  | after (value : Json)

/-- What the next token comes to. An array or object may be closed before its first part, or after
any, but not after a comma. -/
def advance : Stage × List Frame → Token → Option (Stage × List Frame)
  | (.value, frames), .null => some (.after .null, frames)
  | (.value, frames), .int n => some (.after (.int n), frames)
  | (.value, frames), .str s => some (.after (.str s), frames)
  | (.value, frames), .openArray => some (.value, .arr [] :: frames)
  | (.value, frames), .openObject => some (.key [], frames)
  | (.value, .arr [] :: frames), .closeArray => some (.after (.arr []), frames)
  | (.key [], frames), .closeObject => some (.after (.obj []), frames)
  | (.key members, frames), .str key => some (.colon members key, frames)
  | (.colon members key, frames), .colon => some (.value, .obj members key :: frames)
  | (.after value, .arr items :: frames), .comma => some (.value, .arr (items ++ [value]) :: frames)
  | (.after value, .arr items :: frames), .closeArray =>
    some (.after (.arr (items ++ [value])), frames)
  | (.after value, .obj members key :: frames), .comma =>
    some (.key (members ++ [(key, value)]), frames)
  | (.after value, .obj members key :: frames), .closeObject =>
    some (.after (.obj (members ++ [(key, value)])), frames)
  | _, _ => none

def ofTokens? (ts : List Token) : Option Json :=
  match ts.foldlM advance (.value, []) with
  | some (.after value, []) => some value
  | _ => none

def parse? (text : String) : Option Json :=
  (lex .between text.toList).bind ofTokens?

/-! ### Round trip -/

theorem foldlM_advance_cons {state next : Stage × List Frame} {t : Token}
    (h : advance state t = some next) (ts : List Token) :
    (t :: ts).foldlM advance state = ts.foldlM advance next := by
  rw [List.foldlM_cons, h]
  rfl

theorem foldlM_advance_append {state next : Stage × List Frame} {ts : List Token}
    (h : ts.foldlM advance state = some next) (us : List Token) :
    (ts ++ us).foldlM advance state = us.foldlM advance next := by
  rw [List.foldlM_append, h]
  rfl

theorem advance_key (members : List (String × Json)) (key : String) (frames : List Frame) :
    advance (.key members, frames) (.str key) = some (.colon members key, frames) := by
  cases members <;> rfl

-- The tokens of an array or object are followed up to its end: only then is it a value.
mutual

/-- Where a value is waited for, the tokens of a value supply it. -/
theorem foldlM_tokens (value : Json) (frames : List Frame) :
    value.tokens.foldlM advance (.value, frames) = some (.after value, frames) := by
  match value with
  | .null => rfl
  | .int n => rfl
  | .str s => rfl
  | .arr [] => rfl
  | .arr (item :: items) =>
    simp only [tokens, List.cons_append, List.append_assoc]
    rw [foldlM_advance_cons rfl, foldlM_advance_append (foldlM_tokens item _),
      foldlM_itemTokens items]
    rfl
  | .obj [] => rfl
  | .obj ((key, value) :: members) =>
    simp only [tokens, List.cons_append, List.append_assoc]
    rw [foldlM_advance_cons rfl, foldlM_advance_cons (advance_key ..), foldlM_advance_cons rfl,
      foldlM_advance_append (foldlM_tokens value _), foldlM_memberTokens members]
    rfl

/-- The further items of an array are added to it. -/
theorem foldlM_itemTokens (items : List Json) (value : Json) (done : List Json)
    (frames : List Frame) :
    (itemTokens items ++ [Token.closeArray]).foldlM advance (.after value, .arr done :: frames) =
      some (.after (.arr (done ++ value :: items)), frames) := by
  match items with
  | [] => rfl
  | item :: items =>
    simp only [itemTokens, List.cons_append, List.append_assoc]
    rw [foldlM_advance_cons rfl, foldlM_advance_append (foldlM_tokens item _),
      foldlM_itemTokens items, List.append_assoc, List.singleton_append]

/-- The further members of an object are added to it. -/
theorem foldlM_memberTokens (members : List (String × Json)) (key : String) (value : Json)
    (done : List (String × Json)) (frames : List Frame) :
    (memberTokens members ++ [Token.closeObject]).foldlM advance
        (.after value, .obj done key :: frames) =
      some (.after (.obj (done ++ (key, value) :: members)), frames) := by
  match members with
  | [] => rfl
  | (key', value') :: members =>
    simp only [memberTokens, List.cons_append, List.append_assoc]
    rw [foldlM_advance_cons rfl, foldlM_advance_cons (advance_key ..), foldlM_advance_cons rfl,
      foldlM_advance_append (foldlM_tokens value' _), foldlM_memberTokens members,
      List.append_assoc, List.singleton_append]

end

/-- What was printed is read back. -/
theorem parse?_render (value : Json) : parse? value.render = some value := by
  have hread : ofTokens? value.tokens = some value := by rw [ofTokens?, foldlM_tokens]
  rw [parse?, lex_render, Option.bind_some, hread]

/-- A line break or a printable ASCII character. -/
def IsPlain (c : Char) : Prop :=
  c = '\n' ∨ 0x20 ≤ c.toNat ∧ c.toNat ≤ 0x7E

instance (c : Char) : Decidable (IsPlain c) :=
  inferInstanceAs (Decidable (_ ∨ _))

theorem isPlain_of_isDigit {c : Char} (h : c.isDigit) : IsPlain c := by
  simp only [Char.isDigit, Bool.and_eq_true, decide_eq_true_eq, UInt32.le_iff_toNat_le,
    Char.toNat_val] at h
  exact .inr ⟨Nat.le_trans (by decide) h.1, Nat.le_trans h.2 (by decide)⟩

theorem isPlain_digitChar {d : Nat} (h : d < 16) : IsPlain (Nat.digitChar d) := by
  have hall : ∀ d : Fin 16, IsPlain (Nat.digitChar d) := by decide
  exact hall ⟨d, h⟩

theorem isPlain_hexDigits (width n : Nat) : ∀ c ∈ Text.hexDigits width n, IsPlain c := by
  induction width generalizing n with
  | zero => simp [Text.hexDigits]
  | succ width ih =>
    rw [Text.hexDigits, List.forall_mem_append, List.forall_mem_singleton]
    exact ⟨ih _, isPlain_digitChar (Nat.mod_lt n (by decide))⟩

theorem isPlain_escapeUnit (unit : Nat) : ∀ c ∈ escapeUnit unit, IsPlain c := by
  rw [escapeUnit, List.forall_mem_cons, List.forall_mem_cons]
  exact ⟨by decide, by decide, isPlain_hexDigits 4 unit⟩

theorem isPlain_shortEscape {letter : Char} {unit : Nat} (h : shortEscape? letter = some unit) :
    IsPlain letter := by
  unfold shortEscape? at h
  split at h <;> cases h <;> decide

theorem isPlain_escapeChar (c : Char) : ∀ x ∈ escapeChar c, IsPlain x := by
  have hescaped := escaped_escapeChar c
  generalize escapeChar c = es at hescaped
  cases hescaped with
  | letter hne h =>
    rw [List.forall_mem_cons, List.forall_mem_singleton]
    exact ⟨by decide, isPlain_shortEscape h⟩
  | itself hquote hback hle hlt =>
    rw [List.forall_mem_singleton]
    exact .inr ⟨hle, by omega⟩
  | units =>
    rw [List.forall_mem_flatMap]
    exact fun unit _ => isPlain_escapeUnit unit

theorem isPlain_quote (s : String) : ∀ c ∈ quote s, IsPlain c := by
  rw [quote, List.cons_append, List.forall_mem_cons, List.forall_mem_append,
    List.forall_mem_flatMap, List.forall_mem_singleton]
  exact ⟨by decide, fun c _ => isPlain_escapeChar c, by decide⟩

theorem isPlain_decimalChars (n : Int) : ∀ c ∈ Text.decimalChars n, IsPlain c := by
  cases n with
  | ofNat n => exact fun c hc => isPlain_of_isDigit (isDigit_of_mem_toDigits hc)
  | negSucc n =>
    rw [Text.decimalChars, List.forall_mem_cons]
    exact ⟨by decide, fun c hc => isPlain_of_isDigit (isDigit_of_mem_toDigits hc)⟩

theorem isPlain_newline (level : Nat) : ∀ c ∈ newline level, IsPlain c := by
  rw [newline, List.forall_mem_cons]
  refine ⟨by decide, fun c hc => ?_⟩
  rw [List.eq_of_mem_replicate hc]
  decide

mutual

theorem isPlain_chars (level : Nat) (value : Json) : ∀ c ∈ chars level value, IsPlain c := by
  match value with
  | .null =>
    simp only [chars, List.forall_mem_cons]
    exact ⟨by decide, by decide, by decide, by decide, List.forall_mem_nil _⟩
  | .int n => exact isPlain_decimalChars n
  | .str s => exact isPlain_quote s
  | .arr [] =>
    simp only [chars, List.forall_mem_cons]
    exact ⟨by decide, by decide, List.forall_mem_nil _⟩
  | .arr (item :: items) =>
    simp only [chars, List.cons_append, List.append_assoc, List.forall_mem_cons,
      List.forall_mem_append]
    exact ⟨by decide, isPlain_newline _, isPlain_chars _ item, isPlain_itemChars _ items,
      isPlain_newline _, by decide, List.forall_mem_nil _⟩
  | .obj [] =>
    simp only [chars, List.forall_mem_cons]
    exact ⟨by decide, by decide, List.forall_mem_nil _⟩
  | .obj ((key, value) :: members) =>
    simp only [chars, List.cons_append, List.append_assoc, List.nil_append,
      List.forall_mem_cons, List.forall_mem_append]
    exact ⟨by decide, isPlain_newline _, isPlain_quote key, by decide, by decide,
      isPlain_chars _ value, isPlain_memberChars _ members, isPlain_newline _, by decide,
      List.forall_mem_nil _⟩

theorem isPlain_itemChars (level : Nat) (items : List Json) :
    ∀ c ∈ itemChars level items, IsPlain c := by
  match items with
  | [] => simp [itemChars]
  | item :: items =>
    simp only [itemChars, List.cons_append, List.append_assoc, List.forall_mem_cons,
      List.forall_mem_append]
    exact ⟨by decide, isPlain_newline _, isPlain_chars _ item, isPlain_itemChars _ items⟩

theorem isPlain_memberChars (level : Nat) (members : List (String × Json)) :
    ∀ c ∈ memberChars level members, IsPlain c := by
  match members with
  | [] => simp [memberChars]
  | (key, value) :: members =>
    simp only [memberChars, List.cons_append, List.append_assoc, List.nil_append,
      List.forall_mem_cons, List.forall_mem_append]
    exact ⟨by decide, isPlain_newline _, isPlain_quote key, by decide, by decide,
      isPlain_chars _ value, isPlain_memberChars _ members⟩

end

end PaddingAudit.Json
