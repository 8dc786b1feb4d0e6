import Mathlib.Data.List.TakeDrop
import TelemetryAgent.Json.Reader
import TelemetryAgent.Proofs.Text.Numeral

/-!
# Trees are read back from their texts

A tree with whole numbers is read back from the text it is written as. Reading keeps spellings, so
what is read is not quite the tree: a control character for which there is no letter has been
written in hexadecimal, and is read as a code unit. The text that a string spells stays the same.
-/
namespace TelemetryAgent.Json

/-! ## Strings -/

/-- How a piece is spelled once it has been written. -/
def Piece.respelled : Piece → Piece
  | .char c =>
    if c.val < 0x20 ∧ c.val ∉ [0x08, 0x09, 0x0A, 0x0C, 0x0D] then .unit c.toNat else .char c
  | .unit code => .unit (code % 65536)

theorem hexDigit?_hexDigit : ∀ n < 16, Text.hexDigit? (Text.hexDigit n) = some n := by
  decide

theorem readPieces?_hex4 (code : Nat) (rest : List Char) :
    readPieces? ('\\' :: 'u' :: Text.hex4 code ++ rest) =
      (readPieces? rest).map fun (found, rest) => (.unit (code % 65536) :: found, rest) := by
  have hvalue : 4096 * (code / 4096 % 16) + 256 * (code / 256 % 16) + 16 * (code / 16 % 16) +
      code % 16 = code % 65536 := by
    omega
  have hlt : ∀ n, n % 16 < 16 := fun n => Nat.mod_lt n (by decide)
  simp only [Text.hex4, List.cons_append, List.nil_append, readPieces?,
    hexDigit?_hexDigit _ (hlt _), Option.bind_eq_bind, Option.bind_some, hvalue]
  cases readPieces? rest <;> rfl

/-- What a character is written as, and the piece that is read for it. -/
inductive Escaped (c : Char) : List Char → Piece → Prop
  | letter {l : Char} (hu : l ≠ 'u') (hc : unescape? l = some c) : Escaped c ['\\', l] (.char c)
  | code (hc : c.val < 0x20) : Escaped c ('\\' :: 'u' :: Text.hex4 c.toNat) (.unit c.toNat)
  | plain (hquote : c ≠ '"') (hslash : c ≠ '\\') (hc : ¬ c.val < 0x20) : Escaped c [c] (.char c)

theorem escaped_escape (c : Char) : Escaped c (escape c) (Piece.char c).respelled := by
  have hletter : ∀ {l : Char} {n : UInt32}, c.val = n → n ∈ [0x08, 0x09, 0x0A, 0x0C, 0x0D] →
      l ≠ 'u' → unescape? l = some c → Escaped c ['\\', l] (Piece.char c).respelled := by
    intro l n hval hn hu hc
    rw [Piece.respelled, if_neg fun h => h.2 (hval ▸ hn)]
    exact .letter hu hc
  unfold escape
  split
  · rename_i h
    subst h
    exact .letter (by decide) rfl
  split
  · rename_i h
    subst h
    exact .letter (by decide) rfl
  split
  · rename_i h
    exact hletter h (by decide) (by decide) (congrArg some (Char.ext h.symm))
  split
  · rename_i h
    exact hletter h (by decide) (by decide) (congrArg some (Char.ext h.symm))
  split
  · rename_i h
    exact hletter (congrArg Char.val h) (by decide) (by decide) (congrArg some h.symm)
  split
  · rename_i h
    exact hletter (congrArg Char.val h) (by decide) (by decide) (congrArg some h.symm)
  split
  · rename_i h
    exact hletter (congrArg Char.val h) (by decide) (by decide) (congrArg some h.symm)
  -- no letter is left for `c`
  rename_i hquote hslash h08 h0c h0a h0d h09
  have hnone : c.val ∉ [0x08, 0x09, 0x0A, 0x0C, 0x0D] := by
    simp only [List.mem_cons, List.not_mem_nil, or_false, not_or]
    exact ⟨h08, fun h => h09 (Char.ext h), fun h => h0a (Char.ext h), h0c,
      fun h => h0d (Char.ext h)⟩
  split
  · rename_i h
    rw [Piece.respelled, if_pos ⟨h, hnone⟩]
    exact .code h
  · rename_i h
    rw [Piece.respelled, if_neg fun h' => h h'.1]
    exact .plain hquote hslash h

theorem readPieces?_renderPiece (p : Piece) (rest : List Char) :
    readPieces? (renderPiece p ++ rest) =
      (readPieces? rest).map fun (found, rest) => (p.respelled :: found, rest) := by
  cases p with
  | unit code => exact readPieces?_hex4 code rest
  | char c =>
      have hescaped := escaped_escape c
      change readPieces? (escape c ++ rest) = _
      generalize escape c = written, (Piece.char c).respelled = p at hescaped ⊢
      cases hescaped with
      | @letter l hu hc =>
          change readPieces? ('\\' :: l :: rest) = _
          rw [readPieces?]
          · cases readPieces? rest <;> simp [hc]
          · simp [hu]
      | code hc =>
          have hsmall : c.toNat % 65536 = c.toNat :=
            Nat.mod_eq_of_lt (Nat.lt_of_lt_of_le hc (by decide))
          rw [readPieces?_hex4, hsmall]
      | plain hquote hslash hc =>
          change readPieces? (c :: rest) = _
          rw [readPieces?]
          · simp [hslash, hc]
          · simp [hquote]
          · simp [hslash]
          · simp [hslash]

/-- A string is read up to the quote that closes it. -/
theorem readPieces?_flatMap (s : List Piece) (rest : List Char) :
    readPieces? (s.flatMap renderPiece ++ '"' :: rest) = some (s.map Piece.respelled, rest) := by
  induction s with
  | nil => rfl
  | cons p s ih =>
      rw [List.flatMap_cons, List.append_assoc, readPieces?_renderPiece, ih]
      rfl

/-- A string spells the text that it was written for. -/
theorem spelled?_respelled (s : List Char) :
    spelled? ((s.map Piece.char).map Piece.respelled) = some s := by
  induction s with
  | nil => rfl
  | cons c s ih =>
      have hescaped := escaped_escape c
      rw [List.map_cons, List.map_cons]
      generalize escape c = written, (Piece.char c).respelled = p at hescaped
      cases hescaped with
      | letter | plain =>
          rw [spelled?, ih]
          rfl
      | code hc =>
          have hlow : c.toNat < 0x20 := hc
          rw [spelled?.eq_def]
          dsimp only
          rw [if_neg (by omega), if_neg (by omega), ih, Option.map_some, Char.ofNat_toNat]

/-! ## Numbers -/

/-- What may come after a value in a text that was written. -/
def Ends (rest : List Char) : Prop := ∀ c ∈ rest.head?, c = ',' ∨ c = ']' ∨ c = '\x7d'

theorem ends_nil : Ends [] := nofun

theorem ends_cons {c : Char} (hc : c = ',' ∨ c = ']' ∨ c = '\x7d') (rest : List Char) :
    Ends (c :: rest) := by
  intro d hd
  cases hd
  exact hc

/-- A numeral that begins with a zero is that of zero. -/
theorem natural_eq_zero_cons {n : Nat} {s : List Char} (hn : Text.natural n = '0' :: s) :
    s = [] := by
  by_contra hne
  have hall : ∀ c ∈ s, c.isDigit = true := fun c hc =>
    Text.isDigit_of_mem_natural (hn ▸ List.mem_cons_of_mem _ hc)
  have hvalue : Nat.ofDigitChars 10 s 0 = n := by
    have hread : Nat.ofDigitChars 10 (Text.natural n) 0 = n := Nat.ofDigitChars_ten_toDigits
    rw [hn, Nat.ofDigitChars_cons] at hread
    exact hread
  -- without the zero it would be a longer numeral of the same number
  obtain ⟨zeros, hzeros⟩ := Text.eq_zeros_natural hne hall
  rw [hvalue, hn] at hzeros
  have hlength := congrArg List.length hzeros
  simp at hlength
  omega

theorem readDigits?_natural (n : Nat) {rest : List Char} (hrest : Ends rest) :
    readDigits? (Text.natural n ++ rest) = some (Text.natural n, rest) := by
  have hall : ∀ c ∈ Text.natural n, c.isDigit = true := fun c hc => Text.isDigit_of_mem_natural hc
  have hnone : rest.takeWhile Char.isDigit = [] ∧ rest.dropWhile Char.isDigit = rest := by
    cases rest with
    | nil => exact ⟨rfl, rfl⟩
    | cons c rest =>
        have hc : c.isDigit = false := by
          rcases hrest c rfl with rfl | rfl | rfl <;> decide
        simp [hc]
  have hspan : (Text.natural n ++ rest).span Char.isDigit = (Text.natural n, rest) := by
    rw [List.span_eq_takeWhile_dropWhile, List.takeWhile_append_of_pos hall,
      List.dropWhile_append_of_pos hall, hnone.1, hnone.2, List.append_nil]
  have hne : Text.natural n ≠ [] := Nat.toDigits_ne_nil
  rw [readDigits?, hspan]
  split
  · rename_i heq
    exact (hne (Prod.mk.inj heq).1).elim
  · rfl

theorem readWhole?_natural (n : Nat) {rest : List Char} (hrest : Ends rest) :
    readWhole? (Text.natural n ++ rest) = some (Text.natural n, rest) := by
  have hread := readDigits?_natural n hrest
  cases hn : Text.natural n with
  | nil => exact (Nat.toDigits_ne_nil hn).elim
  | cons c s =>
      rw [hn] at hread
      by_cases hc : c = '0'
      · subst hc
        rw [natural_eq_zero_cons hn]
        cases rest with
        | nil => rfl
        | cons d rest => rcases hrest d rfl with rfl | rfl | rfl <;> rfl
      · rw [← hread, List.cons_append, readWhole?]
        simp [hc]

theorem readUnsigned?_natural (n : Nat) {rest : List Char} (hrest : Ends rest) :
    readUnsigned? (Text.natural n ++ rest) = some (Text.natural n, rest) := by
  have hfraction : readFraction? rest = some ([], rest) := by
    cases rest with
    | nil => rfl
    | cons c rest => rcases hrest c rfl with rfl | rfl | rfl <;> rfl
  have hexponent : readExponent? rest = some ([], rest) := by
    cases rest with
    | nil => rfl
    | cons c rest => rcases hrest c rfl with rfl | rfl | rfl <;> rfl
  simp [readUnsigned?, readWhole?_natural n hrest, hfraction, hexponent]

theorem natural_eq_cons (n : Nat) : ∃ c s, Text.natural n = c :: s ∧ c.isDigit = true := by
  cases hn : Text.natural n with
  | nil => exact (Nat.toDigits_ne_nil hn).elim
  | cons c s => exact ⟨c, s, rfl, Text.isDigit_of_mem_natural (hn ▸ List.mem_cons_self)⟩

/-- A numeral begins with a digit or with a sign. -/
theorem integer_eq_cons (i : Int) :
    ∃ c s, Text.integer i = c :: s ∧ (c.isDigit = true ∨ c = '-') := by
  cases i with
  | ofNat n =>
      obtain ⟨c, s, hn, hc⟩ := natural_eq_cons n
      exact ⟨c, s, hn, .inl hc⟩
  | negSucc n => exact ⟨_, _, rfl, .inr rfl⟩

theorem readNumber?_integer (i : Int) {rest : List Char} (hrest : Ends rest) :
    readNumber? (Text.integer i ++ rest) = some (Text.integer i, rest) := by
  cases i with
  | negSucc n =>
      rw [Text.integer, List.cons_append, readNumber?, readUnsigned?_natural (n + 1) hrest]
      rfl
  | ofNat n =>
      have hread := readUnsigned?_natural n hrest
      obtain ⟨c, s, hn, hc⟩ := natural_eq_cons n
      change readNumber? (Text.natural n ++ rest) = some (Text.natural n, rest)
      rw [hn, List.cons_append] at hread ⊢
      rw [readNumber?, hread]
      rintro _ heq
      obtain ⟨rfl, -⟩ := List.cons.inj heq
      cases hc

theorem readValue?_integer (budget : Nat) (i : Int) {rest : List Char} (hrest : Ends rest) :
    readValue? (budget + 1) (Text.integer i ++ rest) = some (number (Text.integer i), rest) := by
  have hread := readNumber?_integer i hrest
  obtain ⟨c, s, hi, hc⟩ := integer_eq_cons i
  rw [hi, List.cons_append] at hread ⊢
  rw [readValue?, hread]
  · rfl
  all_goals
    intro _ heq
    obtain ⟨rfl, -⟩ := List.cons.inj heq
    exact absurd hc (by decide)

/-! ## Trees -/

mutual

def respelled : Json → Json
  | string s => string (s.map Piece.respelled)
  | array items => array (respelledItems items)
  | object members => object (respelledMembers members)
  | j => j

def respelledItems : List Json → List Json
  | [] => []
  | item :: rest => item.respelled :: respelledItems rest

def respelledMembers : List (List Piece × Json) → List (List Piece × Json)
  | [] => []
  | (name, value) :: rest =>
    (name.map Piece.respelled, value.respelled) :: respelledMembers rest

end

/-- All numbers of a tree are whole. -/
inductive Whole : Json → Prop
  | null : Whole null
  | bool (b : Bool) : Whole (bool b)
  | integer (i : Int) : Whole (integer i)
  | string (s : List Piece) : Whole (string s)
  | array {items : List Json} (hitems : ∀ j ∈ items, Whole j) : Whole (array items)
  | object {members : List (List Piece × Json)} (hmembers : ∀ m ∈ members, Whole m.2) :
    Whole (object members)

/-- A tree is read back from its text if the budget is twice the length of it: a bracket takes one,
and so does every item. -/
def ReadsBack (j : Json) : Prop := ∀ budget rest, 2 * j.render.length ≤ budget → Ends rest →
  readValue? budget (j.render ++ rest) = some (j.respelled, rest)

/-! ### How texts begin -/

/-- A text that begins neither with white space nor with what closes a list. -/
def Begins (s : List Char) : Prop := ∃ c t, s = c :: t ∧ isSpace c = false ∧ c ≠ ']'

theorem skipSpace_cons {c : Char} (hc : isSpace c = false) (s : List Char) :
    skipSpace (c :: s) = c :: s := by
  simp [skipSpace, hc]

theorem skipSpace_of_begins {s : List Char} (hs : Begins s) (rest : List Char) :
    skipSpace (s ++ rest) = s ++ rest := by
  obtain ⟨c, t, rfl, hc, -⟩ := hs
  exact skipSpace_cons hc _

theorem begins_render {j : Json} (hj : Whole j) : Begins j.render := by
  cases hj with
  | integer i =>
      obtain ⟨c, s, hi, hc⟩ := integer_eq_cons i
      have hne : ∀ d : Char, ¬ (d.isDigit = true ∨ d = '-') → c ≠ d := fun d hd heq => hd (heq ▸ hc)
      have hspace : isSpace c = false := by
        simp [isSpace, hne ' ' (by decide), hne '\n' (by decide), hne '\t' (by decide),
          hne '\r' (by decide)]
      exact ⟨c, s, by rw [Json.integer, render, hi], hspace, hne _ (by decide)⟩
  | bool b => cases b <;> exact ⟨_, _, rfl, by decide⟩
  | _ => exact ⟨_, _, rfl, by decide⟩

theorem begins_renderItems {item : Json} (hitem : Begins item.render) (items : List Json) :
    Begins (renderItems (item :: items)) := by
  obtain ⟨c, t, hc, hbegins⟩ := hitem
  cases items with
  | nil => exact ⟨c, t, by rw [renderItems, hc], hbegins⟩
  | cons next items =>
      refine ⟨c, t ++ ',' :: renderItems (next :: items), ?_, hbegins⟩
      rw [renderItems, hc, List.cons_append]
      exact List.cons_ne_nil _ _

theorem renderMembers_eq_cons (m : List Piece × Json) (members : List (List Piece × Json)) :
    ∃ t, renderMembers (m :: members) = '"' :: t := by
  obtain ⟨name, value⟩ := m
  cases members <;> exact ⟨_, rfl⟩

/-! ### Lists -/

theorem readItems?_render {items : List Json} (hne : items ≠ []) (hwhole : ∀ j ∈ items, Whole j)
    (hreads : ∀ j ∈ items, ReadsBack j) (rest : List Char) {budget : Nat}
    (hbudget : 2 * (renderItems items).length + 1 ≤ budget) :
    readItems? budget (renderItems items ++ ']' :: rest) = some (respelledItems items, rest) := by
  induction items generalizing budget with
  | nil => exact (hne rfl).elim
  | cons item items ih =>
      obtain ⟨hitem, hothers⟩ := List.forall_mem_cons.mp hreads
      obtain ⟨budget, rfl⟩ : ∃ b, budget = b + 1 := ⟨budget - 1, by omega⟩
      cases items with
      | nil =>
          rw [renderItems] at hbudget ⊢
          rw [readItems?, hitem budget _ (by omega) (ends_cons (by decide) rest)]
          rfl
      | cons next items =>
          have htext : renderItems (item :: next :: items) ++ ']' :: rest =
              item.render ++ ',' :: (renderItems (next :: items) ++ ']' :: rest) := by
            simp [renderItems]
          have hlength : (renderItems (item :: next :: items)).length =
              item.render.length + (renderItems (next :: items)).length + 1 := by
            simp [renderItems]
            omega
          have hcomma : ∀ s, skipSpace (',' :: s) = ',' :: s := skipSpace_cons rfl
          have hnext := skipSpace_of_begins
            (begins_renderItems (begins_render (hwhole next (by simp))) items) (']' :: rest)
          have hrest := @ih (List.cons_ne_nil _ _) (fun j hj => hwhole j (List.mem_cons_of_mem _ hj))
            hothers budget (by omega)
          rw [htext, readItems?, hitem budget _ (by omega) (ends_cons (by decide) _)]
          simp only [Option.bind_eq_bind, Option.bind_some, hcomma, hnext, hrest]
          rfl

/-- What is read after a member: the brace, or a comma with more members. -/
def afterMember? (budget : Nat) (member : List Piece × Json) (s : List Char) :
    Option (List (List Piece × Json) × List Char) :=
  match s with
  | '\x7d' :: rest => some ([member], rest)
  | ',' :: rest => do
    let (members, rest) ← readMembers? budget (skipSpace rest)
    return (member :: members, rest)
  | _ => none

/-- One member is read, and then what comes after it decides. -/
theorem readMembers?_cons {name : List Piece} {value : Json} (hbegins : Begins value.render)
    (hvalue : ReadsBack value) {after : List Char} (hafter : Ends after) {budget : Nat}
    (hbudget : 2 * value.render.length ≤ budget) :
    readMembers? (budget + 1) (renderString name ++ ':' :: (value.render ++ after)) =
      afterMember? budget (name.map Piece.respelled, value.respelled) (skipSpace after) := by
  have htext : renderString name ++ ':' :: (value.render ++ after) =
      '"' :: (name.flatMap renderPiece ++ '"' :: ':' :: (value.render ++ after)) := by
    simp [renderString]
  have hcolon : ∀ s, skipSpace (':' :: s) = ':' :: s := skipSpace_cons rfl
  rw [htext, readMembers?, readPieces?_flatMap]
  simp only [Option.bind_eq_bind, Option.bind_some, hcolon, skipSpace_of_begins hbegins,
    hvalue budget after hbudget hafter]
  rfl

theorem readMembers?_render {members : List (List Piece × Json)} (hne : members ≠ [])
    (hwhole : ∀ m ∈ members, Whole m.2) (hreads : ∀ m ∈ members, ReadsBack m.2) (rest : List Char)
    {budget : Nat} (hbudget : 2 * (renderMembers members).length + 1 ≤ budget) :
    readMembers? budget (renderMembers members ++ '\x7d' :: rest) =
      some (respelledMembers members, rest) := by
  induction members generalizing budget with
  | nil => exact (hne rfl).elim
  | cons m members ih =>
      obtain ⟨name, value⟩ := m
      have hbegins : Begins value.render := begins_render (hwhole _ List.mem_cons_self)
      have hvalue : ReadsBack value := hreads _ List.mem_cons_self
      obtain ⟨budget, rfl⟩ : ∃ b, budget = b + 1 := ⟨budget - 1, by omega⟩
      cases members with
      | nil =>
          have htext : renderMembers [(name, value)] ++ '\x7d' :: rest =
              renderString name ++ ':' :: (value.render ++ '\x7d' :: rest) := by
            simp [renderMembers]
          have hlength : value.render.length ≤ (renderMembers [(name, value)]).length := by
            simp [renderMembers]
            omega
          rw [htext, readMembers?_cons hbegins hvalue (ends_cons (by decide) rest) (by omega)]
          rfl
      | cons next members =>
          have htext : renderMembers ((name, value) :: next :: members) ++ '\x7d' :: rest =
              renderString name ++ ':' ::
                (value.render ++ ',' :: (renderMembers (next :: members) ++ '\x7d' :: rest)) := by
            simp [renderMembers]
          have hlength : value.render.length + (renderMembers (next :: members)).length + 1 ≤
              (renderMembers ((name, value) :: next :: members)).length := by
            simp [renderMembers]
            omega
          have hcomma : ∀ s, skipSpace (',' :: s) = ',' :: s := skipSpace_cons rfl
          have hnext : skipSpace (renderMembers (next :: members) ++ '\x7d' :: rest) =
              renderMembers (next :: members) ++ '\x7d' :: rest := by
            obtain ⟨t, ht⟩ := renderMembers_eq_cons next members
            rw [ht]
            rfl
          have hrest := @ih (List.cons_ne_nil _ _) (fun m hm => hwhole m (List.mem_cons_of_mem _ hm))
            (fun m hm => hreads m (List.mem_cons_of_mem _ hm)) budget (by omega)
          rw [htext, readMembers?_cons hbegins hvalue (ends_cons (by decide) _) (by omega)]
          simp only [afterMember?, hcomma, hnext, hrest]
          rfl

/-! ### Values -/

/-- A text that is not empty leaves something of the budget to begin with. -/
theorem ReadsBack.of_succ {j : Json} (hbegins : Begins j.render)
    (hread : ∀ budget rest, 2 * j.render.length ≤ budget + 1 → Ends rest →
      readValue? (budget + 1) (j.render ++ rest) = some (j.respelled, rest)) : ReadsBack j := by
  intro budget rest hbudget hrest
  obtain ⟨c, t, hc, -⟩ := hbegins
  have hpos : 0 < j.render.length := by simp [hc]
  obtain ⟨budget, rfl⟩ : ∃ b, budget = b + 1 := ⟨budget - 1, by omega⟩
  exact hread budget rest hbudget hrest

theorem readValue?_bracket {s : List Char} (hskip : skipSpace s = s) (hne : ∀ t, s ≠ ']' :: t)
    (budget : Nat) : readValue? (budget + 1) ('[' :: s) =
      (readItems? budget s).map fun (items, rest) => (array items, rest) := by
  rw [readValue?, hskip]
  split
  · exact (hne _ rfl).elim
  · rfl

theorem readValue?_brace {s : List Char} (hskip : skipSpace s = s) (hne : ∀ t, s ≠ '\x7d' :: t)
    (budget : Nat) : readValue? (budget + 1) ('\x7b' :: s) =
      (readMembers? budget s).map fun (members, rest) => (object members, rest) := by
  rw [readValue?, hskip]
  split
  · exact (hne _ rfl).elim
  · rfl

/-- The induction is on the tree. Brackets with nothing between them are read at once. -/
theorem readsBack {j : Json} (hj : Whole j) : ReadsBack j := by
  have hbegins := begins_render hj
  induction hj with
  | null => exact .of_succ hbegins fun _ _ _ _ => rfl
  | bool b =>
      refine .of_succ hbegins fun _ _ _ _ => ?_
      cases b <;> rfl
  | integer i => exact .of_succ hbegins fun budget rest _ hrest => readValue?_integer budget i hrest
  | string s =>
      refine .of_succ hbegins fun budget rest _ _ => ?_
      have htext : render (string s) ++ rest = '"' :: (s.flatMap renderPiece ++ '"' :: rest) := by
        simp [render, renderString]
      rw [htext, readValue?, readPieces?_flatMap]
      rfl
  | @array items hitems ih =>
      refine .of_succ hbegins fun budget rest hbudget _ => ?_
      have htext : render (array items) ++ rest = '[' :: (renderItems items ++ ']' :: rest) := by
        simp [render]
      have hlength : (render (array items)).length = (renderItems items).length + 2 := by
        simp [render]
      cases items with
      | nil => rfl
      | cons item items =>
          have hfirst := begins_renderItems (begins_render (hitems item List.mem_cons_self)) items
          have hread := @readItems?_render _ (List.cons_ne_nil item items) hitems
            (fun j hj => ih j hj (begins_render (hitems j hj))) rest budget (by omega)
          have hne : ∀ t, renderItems (item :: items) ++ ']' :: rest ≠ ']' :: t := by
            obtain ⟨c, s, hc, -, hne⟩ := hfirst
            intro t heq
            rw [hc] at heq
            exact hne (List.cons.inj heq).1
          rw [htext, readValue?_bracket (skipSpace_of_begins hfirst _) hne, hread]
          rfl
  | @object members hmembers ih =>
      refine .of_succ hbegins fun budget rest hbudget _ => ?_
      have htext : render (object members) ++ rest =
          '\x7b' :: (renderMembers members ++ '\x7d' :: rest) := by
        simp [render]
      have hlength : (render (object members)).length = (renderMembers members).length + 2 := by
        simp [render]
      cases members with
      | nil => rfl
      | cons m members =>
          have hread := @readMembers?_render _ (List.cons_ne_nil m members) hmembers
            (fun m hm => ih m hm (begins_render (hmembers m hm))) rest budget (by omega)
          obtain ⟨t, ht⟩ := renderMembers_eq_cons m members
          rw [ht] at hread htext
          have hskip : skipSpace ('"' :: t ++ '\x7d' :: rest) = '"' :: t ++ '\x7d' :: rest := rfl
          rw [htext, readValue?_brace hskip nofun, hread]
          rfl

theorem parse?_render {j : Json} (hj : Whole j) : parse? j.render = some j.respelled := by
  have hread := readsBack hj (2 * j.render.length + 2) [] (by omega) ends_nil
  have hskip := skipSpace_of_begins (begins_render hj) []
  rw [List.append_nil] at hread hskip
  rw [parse?, hskip, hread]
  rfl

end TelemetryAgent.Json
