import Selectors.Json.Printer
import Selectors.Json.Reader

/-!
# Reading the texts that are written

The compact text of a JSON tree is read as that tree, if the tree holds no numbers
(`JsonText.read_compact`). Two steps lead there, and each follows the tree: the characters that are
written for a tree give its tokens (`Lexer.hasRead_compact`), and its tokens build the tree
(`TreeBuilder.foldl_step_tokens`).
-/

namespace Selectors

/-! ## Trees without numbers -/

namespace Json

mutual
/-- Whether a tree holds neither numbers nor faults. -/
def isPlain : Json → Bool
  | .null | .bool _ | .str _ => true
  | .arr items => areItemsPlain items
  | .obj members => areMembersPlain members
  | .num _ | .fault _ => false

def areItemsPlain : List Json → Bool
  | [] => true
  | item :: items => item.isPlain && areItemsPlain items

def areMembersPlain : List (String × Json) → Bool
  | [] => true
  | (_, value) :: members => value.isPlain && areMembersPlain members
end

mutual
/-- A tree without faults has no fault of any kind. -/
theorem hasFault_of_isPlain (kinds : List Fault) : ∀ {j : Json}, j.isPlain →
    j.hasFault kinds = false
  | .null, _ | .bool _, _ | .str _, _ => rfl
  | .arr items, h => by
    rw [hasFault]
    exact anyItemHasFault_of_arePlain kinds h
  | .obj members, h => by
    rw [hasFault]
    exact anyMemberHasFault_of_arePlain kinds h

theorem anyItemHasFault_of_arePlain (kinds : List Fault) : ∀ {items : List Json},
    areItemsPlain items → anyItemHasFault kinds items = false
  | [], _ => rfl
  | item :: items, h => by
    obtain ⟨hitem, hitems⟩ : item.isPlain ∧ areItemsPlain items := by
      simpa [areItemsPlain] using h
    simp [anyItemHasFault, hasFault_of_isPlain kinds hitem,
      anyItemHasFault_of_arePlain kinds hitems]

theorem anyMemberHasFault_of_arePlain (kinds : List Fault) : ∀ {members : List (String × Json)},
    areMembersPlain members → anyMemberHasFault kinds members = false
  | [], _ => rfl
  | (_, value) :: members, h => by
    obtain ⟨hvalue, hmembers⟩ : value.isPlain ∧ areMembersPlain members := by
      simpa [areMembersPlain] using h
    simp [anyMemberHasFault, hasFault_of_isPlain kinds hvalue,
      anyMemberHasFault_of_arePlain kinds hmembers]
end

theorem areItemsPlain_eq_all (items : List Json) : areItemsPlain items = items.all isPlain := by
  induction items with
  | nil => rfl
  | cons item items ih => rw [areItemsPlain, ih, List.all_cons]

theorem areMembersPlain_eq_all (members : List (String × Json)) :
    areMembersPlain members = members.all (·.2.isPlain) := by
  induction members with
  | nil => rfl
  | cons member members ih => rw [areMembersPlain, ih, List.all_cons]

theorem isLegible_of_isPlain {j : Json} (h : j.isPlain) : j.isLegible := by
  simp [isLegible, hasFault_of_isPlain _ h]

/-! ## The tokens of a tree -/

mutual
/-- The tokens of a tree, in the order in which they are written. -/
def tokens : Json → List Token
  | .str value => [.string (some value)]
  | .arr items => .beginArray :: (tokensOfItems items ++ [.endArray])
  | .obj members => .beginObject :: (tokensOfMembers members ++ [.endObject])
  | j => [.scalar j]

def tokensOfItems : List Json → List Token
  | [] => []
  | [item] => item.tokens
  | item :: items => item.tokens ++ .comma :: tokensOfItems items

def tokensOfMembers : List (String × Json) → List Token
  | [] => []
  | [(name, value)] => .string (some name) :: .colon :: value.tokens
  | (name, value) :: members =>
    .string (some name) :: .colon :: (value.tokens ++ .comma :: tokensOfMembers members)
end

end Json

/-! ## From characters to tokens -/

namespace Lexer

theorem hexDigit?_hexDigit : ∀ n < 16, hexDigit? (Json.hexDigit n) = some n := by decide

/-- The characters that are written for one character are read as that character. -/
theorem foldl_step_escapeChar (c : Char) (chars : List Char) (tokens : List Token) :
    (Json.escapeChar c).foldl step ⟨.string ⟨chars, none, true⟩, tokens⟩ =
      ⟨.string ⟨c :: chars, none, true⟩, tokens⟩ := by
  unfold Json.escapeChar
  split
  -- All but the last case have an escape of their own. In the last, a control character is written
  -- by four digits, whose value is no half of a surrogate pair.
  case h_8 hquote hbackslash _ _ _ _ _ =>
    split
    case isTrue hcontrol =>
      have hhigh := hexDigit?_hexDigit (c.toNat / 16) (by omega)
      have hlow := hexDigit?_hexDigit (c.toNat % 16) (by omega)
      have hunit : 16 * (c.toNat / 16) + c.toNat % 16 = c.toNat := Nat.div_add_mod ..
      have hzero : hexDigit? '0' = some 0 := rfl
      have hlow' : ¬ 0xD800 ≤ c.toNat := by omega
      have hhigh' : ¬ 0xDC00 ≤ c.toNat := by omega
      simp [step, hzero, hhigh, hlow, hunit, PartialString.pushUnit, hlow', hhigh',
        PartialString.push]
    case isFalse hcontrol =>
      have hnotQuote : c ≠ '"' := hquote
      have hnotBackslash : c ≠ '\\' := hbackslash
      simp [step, hnotQuote, hnotBackslash, hcontrol, PartialString.push]
  all_goals rfl

theorem foldl_step_escapeChars (cs : List Char) : ∀ (chars : List Char) (tokens : List Token),
    (cs.flatMap Json.escapeChar).foldl step ⟨.string ⟨chars, none, true⟩, tokens⟩ =
      ⟨.string ⟨cs.reverse ++ chars, none, true⟩, tokens⟩ := by
  induction cs with
  | nil => intros; rfl
  | cons c cs ih =>
    intro chars tokens
    rw [List.flatMap_cons, List.foldl_append, foldl_step_escapeChar, ih]
    simp

/-- A text between quotes is read as a string. -/
theorem foldl_step_quote (s : String) (tokens : List Token) :
    (Json.quote s).toList.foldl step ⟨.between, tokens⟩ =
      ⟨.between, .string (some s) :: tokens⟩ := by
  have hchars : (Json.quote s).toList = '"' :: s.toList.flatMap Json.escapeChar ++ ['"'] := by
    simp [Json.quote]
  rw [hchars, List.cons_append, List.foldl_cons, List.foldl_append]
  change [('"' : Char)].foldl step ((s.toList.flatMap Json.escapeChar).foldl step
    ⟨.string ⟨[], none, true⟩, tokens⟩) = _
  rw [foldl_step_escapeChars]
  simp [step, emit, PartialString.value?]

theorem foldl_step_name (name : String) (cs : List Char) (tokens : List Token) :
    ((Json.quote name).toList ++ ':' :: cs).foldl step ⟨.between, tokens⟩ =
      cs.foldl step ⟨.between, .colon :: .string (some name) :: tokens⟩ := by
  rw [List.foldl_append, foldl_step_quote]
  rfl

/-- The lexer has read the tokens, last first. The last one may be a word that the end of the text
or the next delimiter is still to end. -/
structure HasRead (l : Lexer) (tokens : List Token) : Prop where
  finish : l.finish.tokens = tokens
  comma : l.step ',' = ⟨.between, .comma :: tokens⟩
  endArray : l.step ']' = ⟨.between, .endArray :: tokens⟩
  endObject : l.step '\x7d' = ⟨.between, .endObject :: tokens⟩

theorem hasRead_between (tokens : List Token) : HasRead ⟨.between, tokens⟩ tokens :=
  ⟨rfl, rfl, rfl, rfl⟩

mutual
/-- The text of a tree is read as the tree's tokens. -/
theorem hasRead_compact : ∀ j : Json, j.isPlain → ∀ tokens,
    HasRead (j.compact.toList.foldl step ⟨.between, tokens⟩) (j.tokens.reverse ++ tokens)
  | .null, _, _ => ⟨rfl, rfl, rfl, rfl⟩
  | .bool true, _, _ => ⟨rfl, rfl, rfl, rfl⟩
  | .bool false, _, _ => ⟨rfl, rfl, rfl, rfl⟩
  | .str value, _, tokens => by
    rw [Json.compact, foldl_step_quote]
    exact hasRead_between _
  | .arr items, h, tokens => by
    have hitems := hasRead_compactItems items h (.beginArray :: tokens)
    have htext : (Json.arr items).compact.toList =
        '[' :: ((",".intercalate (Json.compactItems items)).toList ++ [']']) := by
      simp [Json.compact]
    have hstart : step ⟨.between, tokens⟩ '[' = ⟨.between, .beginArray :: tokens⟩ := rfl
    rw [htext, List.foldl_cons, List.foldl_append, hstart, List.foldl_cons, hitems.endArray]
    simpa [Json.tokens] using hasRead_between _
  | .obj members, h, tokens => by
    have hmembers := hasRead_compactMembers members h (.beginObject :: tokens)
    have htext : (Json.obj members).compact.toList =
        '\x7b' :: ((",".intercalate (Json.compactMembers members)).toList ++ ['\x7d']) := by
      simp [Json.compact]
    have hstart : step ⟨.between, tokens⟩ '\x7b' = ⟨.between, .beginObject :: tokens⟩ := rfl
    rw [htext, List.foldl_cons, List.foldl_append, hstart, List.foldl_cons, hmembers.endObject]
    simpa [Json.tokens] using hasRead_between _

theorem hasRead_compactItems : ∀ items : List Json, Json.areItemsPlain items → ∀ tokens,
    HasRead ((",".intercalate (Json.compactItems items)).toList.foldl step ⟨.between, tokens⟩)
      ((Json.tokensOfItems items).reverse ++ tokens)
  | [], _, tokens => hasRead_between tokens
  | [item], h, tokens => by
    have hitem : item.isPlain := by simpa [Json.areItemsPlain] using h
    simpa [Json.compactItems, Json.tokensOfItems] using hasRead_compact item hitem tokens
  | item :: next :: rest, h, tokens => by
    obtain ⟨hitem, hrest⟩ : item.isPlain ∧ Json.areItemsPlain (next :: rest) := by
      simpa [Json.areItemsPlain] using h
    have htext : (",".intercalate (Json.compactItems (item :: next :: rest))).toList =
        item.compact.toList ++
          ',' :: (",".intercalate (Json.compactItems (next :: rest))).toList := by
      simp [Json.compactItems, String.intercalate_cons_cons]
    rw [htext, List.foldl_append, List.foldl_cons, (hasRead_compact item hitem tokens).comma]
    simpa [Json.tokensOfItems] using
      hasRead_compactItems (next :: rest) hrest (.comma :: (item.tokens.reverse ++ tokens))

theorem hasRead_compactMembers : ∀ members : List (String × Json),
    Json.areMembersPlain members → ∀ tokens,
    HasRead ((",".intercalate (Json.compactMembers members)).toList.foldl step ⟨.between, tokens⟩)
      ((Json.tokensOfMembers members).reverse ++ tokens)
  | [], _, tokens => hasRead_between tokens
  | [(name, value)], h, tokens => by
    have hvalue : value.isPlain := by simpa [Json.areMembersPlain] using h
    have htext : (",".intercalate (Json.compactMembers [(name, value)])).toList =
        (Json.quote name).toList ++ ':' :: value.compact.toList := by
      simp [Json.compactMembers]
    rw [htext, foldl_step_name]
    simpa [Json.tokensOfMembers] using hasRead_compact value hvalue _
  | (name, value) :: next :: rest, h, tokens => by
    obtain ⟨hvalue, hrest⟩ : value.isPlain ∧ Json.areMembersPlain (next :: rest) := by
      simpa [Json.areMembersPlain] using h
    have htext : (",".intercalate (Json.compactMembers ((name, value) :: next :: rest))).toList =
        (Json.quote name).toList ++ ':' :: (value.compact.toList ++
          ',' :: (",".intercalate (Json.compactMembers (next :: rest))).toList) := by
      simp [Json.compactMembers, String.intercalate_cons_cons]
    rw [htext, foldl_step_name, List.foldl_append, List.foldl_cons,
      (hasRead_compact value hvalue _).comma]
    simpa [Json.tokensOfMembers] using hasRead_compactMembers (next :: rest) hrest _
end

end Lexer

theorem Token.ofText_compact {j : Json} (h : j.isPlain) : Token.ofText j.compact = j.tokens := by
  simp [Token.ofText, (Lexer.hasRead_compact j h []).finish]

/-! ## From tokens to the tree -/

namespace TreeBuilder

/-- Where a value may begin, the tokens that can begin one do. -/
theorem step_eq_startValue {expected : Expected} (h : expected = .value ∨ expected = .valueOrEnd)
    (stack : List OpenContainer) (token : Token) (htoken : token ≠ .endArray) :
    step (.reading stack expected) token = startValue stack expected token := by
  obtain rfl | rfl := h
  · rfl
  · simp [step, htoken]

theorem foldl_step_name {expected : Expected} (h : expected = .name ∨ expected = .nameOrEnd)
    (before : List (String × Json)) (last : Option String) (stack : List OpenContainer)
    (name : String) (tokens : List Token) :
    (.string (some name) :: .colon :: tokens).foldl step
        (.reading (.object before last :: stack) expected) =
      tokens.foldl step (.reading (.object before (some name) :: stack) .value) := by
  obtain rfl | rfl := h <;> rfl

mutual
/-- The tokens of a tree build the tree. -/
theorem foldl_step_tokens : ∀ j : Json, j.isPlain → ∀ stack {expected},
    (expected = .value ∨ expected = .valueOrEnd) →
    j.tokens.foldl step (.reading stack expected) = complete j stack
  | .null, _, stack, _, he => step_eq_startValue he stack _ (by simp)
  | .bool _, _, stack, _, he => step_eq_startValue he stack _ (by simp)
  | .str _, _, stack, _, he => step_eq_startValue he stack _ (by simp)
  | .arr [], _, stack, _, he => by
    rw [Json.tokens, List.foldl_cons, step_eq_startValue he stack .beginArray (by simp)]
    rfl
  | .arr (item :: items), h, stack, _, he => by
    have hitems := foldl_step_tokensOfItems (item :: items) (by simp) h [] stack (.inr rfl)
    rw [Json.tokens, List.foldl_cons, step_eq_startValue he stack .beginArray (by simp),
      startValue, List.foldl_append, hitems]
    simp [step]
  | .obj [], _, stack, _, he => by
    rw [Json.tokens, List.foldl_cons, step_eq_startValue he stack .beginObject (by simp)]
    rfl
  | .obj (member :: members), h, stack, _, he => by
    obtain ⟨last, hmembers⟩ :=
      foldl_step_tokensOfMembers (member :: members) (by simp) h [] none stack (.inr rfl)
    rw [Json.tokens, List.foldl_cons, step_eq_startValue he stack .beginObject (by simp),
      startValue, List.foldl_append, hmembers]
    simp [step]

theorem foldl_step_tokensOfItems : ∀ items : List Json, items ≠ [] →
    Json.areItemsPlain items → ∀ before stack {expected},
    (expected = .value ∨ expected = .valueOrEnd) →
    (Json.tokensOfItems items).foldl step (.reading (.array before :: stack) expected) =
      .reading (.array (items.reverse ++ before) :: stack) .commaOrEnd
  | [], hne, _, _, _, _, _ => absurd rfl hne
  | [item], _, h, _, _, _, he => by
    have hitem : item.isPlain := by simpa [Json.areItemsPlain] using h
    exact foldl_step_tokens item hitem _ he
  | item :: next :: rest, _, h, before, stack, _, he => by
    obtain ⟨hitem, hrest⟩ : item.isPlain ∧ Json.areItemsPlain (next :: rest) := by
      simpa [Json.areItemsPlain] using h
    have hcomma : step (complete item (.array before :: stack)) .comma =
        .reading (.array (item :: before) :: stack) .value := rfl
    have hitems := foldl_step_tokensOfItems (next :: rest) (by simp) hrest (item :: before) stack
      (.inl rfl)
    rw [Json.tokensOfItems, List.foldl_append, List.foldl_cons, foldl_step_tokens item hitem _ he,
      hcomma, hitems]
    · simp
    · simp

/-- The object keeps the name of its last member. -/
theorem foldl_step_tokensOfMembers : ∀ members : List (String × Json), members ≠ [] →
    Json.areMembersPlain members → ∀ before last stack {expected},
    (expected = .name ∨ expected = .nameOrEnd) →
    ∃ last', (Json.tokensOfMembers members).foldl step
        (.reading (.object before last :: stack) expected) =
      .reading (.object (members.reverse ++ before) last' :: stack) .commaOrEnd
  | [], hne, _, _, _, _, _, _ => absurd rfl hne
  | [(name, value)], _, h, before, last, stack, _, he => by
    have hvalue : value.isPlain := by simpa [Json.areMembersPlain] using h
    refine ⟨some name, ?_⟩
    rw [Json.tokensOfMembers, foldl_step_name he, foldl_step_tokens value hvalue _ (.inl rfl)]
    rfl
  | (name, value) :: next :: rest, _, h, before, last, stack, _, he => by
    obtain ⟨hvalue, hrest⟩ : value.isPlain ∧ Json.areMembersPlain (next :: rest) := by
      simpa [Json.areMembersPlain] using h
    have hcomma : step (complete value (.object before (some name) :: stack)) .comma =
        .reading (.object ((name, value) :: before) (some name) :: stack) .name := rfl
    obtain ⟨last', hmembers⟩ := foldl_step_tokensOfMembers (next :: rest) (by simp) hrest
      ((name, value) :: before) (some name) stack (.inl rfl)
    refine ⟨last', ?_⟩
    rw [Json.tokensOfMembers, foldl_step_name he, List.foldl_append, List.foldl_cons,
      foldl_step_tokens value hvalue _ (.inl rfl), hcomma, hmembers]
    · simp
    · simp
end

end TreeBuilder

/-- The compact text of a tree without numbers is read as that tree. -/
theorem JsonText.read_compact {j : Json} (h : j.isPlain) :
    JsonText.read j.compact = ⟨j, false⟩ := by
  rw [JsonText.read, Token.ofText_compact h, TreeBuilder.foldl_step_tokens j h [] (.inl rfl)]
  rfl

end Selectors
