import Mathlib.Data.List.TakeWhile
import Mathlib.Tactic.SplitIfs
import ExecTrace.Text.Json.Reader

/-
  Documents. The text of a document on one line is read back as
  the document, as long as its numbers are integers and its
  brackets nest no deeper than the reader goes.

  Main declarations:
    * `Json.readString_quoted`
    * `Json.numberOf_int`
    * `Json.fits`
    * `Json.readValue_int`
    * `Json.reads`
    * `Json.ofText_compact`
-/

namespace ExecTrace.Json

------------------------------------------------------------
-- Strings
------------------------------------------------------------

/- A control character is spelled by its code. -/
theorem codeUnit_escape
    {n : Nat}
    (h : n < 32) :
    codeUnit? '0' '0' (escapeDigit (n / 16)) (escapeDigit (n % 16))
      = some n := by
  have hAll : ∀ n < 32,
      codeUnit? '0' '0' (escapeDigit (n / 16)) (escapeDigit (n % 16))
        = some n := by decide
  exact hAll n h

/- An escaped character is read back. -/
theorem readString_escapeChar
    (c : Char)
    (rest : List Char) :
    readString (escapeChar c ++ rest)
      = prepend c (readString rest) := by
  unfold escapeChar
  split_ifs with hQuote hBackslash _ _ _ _ _ hControl
  -- A short escape each.
  any_goals
    subst c
    simp [readString, simpleEscape?]
  · have hLow : c.toNat < 0xD800 := by omega
    simp [readString, codeUnit_escape hControl, hLow]
  · have hNoEscape : c = '\\' → False := hBackslash
    rw [List.singleton_append, readString]
    · simp [hQuote, hBackslash, hControl]
    · intros
      contradiction
    · intros
      contradiction

/- The characters of a quoted string. -/
theorem toList_quoted (s : String) :
    (quoted s).toList
      = '\x22' :: (s.toList.flatMap escapeChar ++ ['\x22']) := by
  simp [quoted]

/- A quoted string is read back. -/
theorem readString_quoted
    (cs rest : List Char) :
    readString (cs.flatMap escapeChar ++ '\x22' :: rest)
      = some (cs, rest) := by
  induction cs with
  | nil => simp [readString]
  | cons c cs ih =>
    rw [List.flatMap_cons, List.append_assoc, readString_escapeChar,
      ih]
    rfl

------------------------------------------------------------
-- Numbers
------------------------------------------------------------

/- Whether no number goes on with some characters. -/
def Stops (rest : List Char) : Prop :=
  ∀ c, rest.head? = some c → isNumberChar c = false

section Numbers

variable {n : Nat}

/- The digits of a number are digits. -/
theorem all_isDigit (n : Nat) :
    ∀ c ∈ Nat.toDigits 10 n, c.isDigit = true :=
  fun _ hc => Nat.isDigit_of_mem_toDigits (by omega) (by omega) hc

/- The value of the digits of a number is the number. -/
theorem digitsValue_toDigits (n : Nat) :
    digitsValue (Nat.toDigits 10 n) = n :=
  Nat.ofDigitChars_ten_toDigits

/- Only zero is written with a zero in front. -/
theorem head_toDigits
    (h : (Nat.toDigits 10 n).head? = some '0') : n = 0 := by
  induction n using Nat.strongRecOn with
  | ind n ih =>
    by_cases hSmall : n < 10
    · have hAll : ∀ n < 10, n.digitChar = '0' → n = 0 := by decide
      rw [Nat.toDigits_of_lt_base hSmall] at h
      exact hAll n hSmall (Option.some.inj h)
    · rw [Nat.toDigits_of_base_le (by omega) (by omega),
        List.head?_append] at h
      have hFirst : (Nat.toDigits 10 (n / 10)).head? = some '0' := by
        cases hHead : (Nat.toDigits 10 (n / 10)).head? with
        | none =>
          rw [List.head?_eq_none_iff] at hHead
          exact absurd hHead Nat.toDigits_ne_nil
        | some c =>
          rw [hHead] at h
          exact h
      have hZero := ih (n / 10) (by omega) hFirst
      omega

/- The digits of a number make up an unsigned number. -/
theorem numberParts_toDigits (n : Nat) :
    numberParts? (Nat.toDigits 10 n)
      = some ⟨Nat.toDigits 10 n, [], 0, true⟩ := by
  have hTake : (Nat.toDigits 10 n).takeWhile Char.isDigit
      = Nat.toDigits 10 n :=
    List.takeWhile_eq_self_iff.mpr (all_isDigit n)
  have hDrop : (Nat.toDigits 10 n).dropWhile Char.isDigit = [] :=
    List.dropWhile_eq_nil_iff.mpr (all_isDigit n)
  have hLeading : ¬(1 < (Nat.toDigits 10 n).length ∧
      (Nat.toDigits 10 n).head? = some '0') := by
    rintro ⟨hLong, hHead⟩
    cases head_toDigits hHead
    simp at hLong
  unfold numberParts?
  simp [hTake, hDrop, hLeading, Nat.toDigits_ne_nil]

end Numbers

/- The characters of an integer. -/
def digitsOf (n : Int) : List Char :=
  if n < 0 then '-' :: Nat.toDigits 10 n.natAbs
  else Nat.toDigits 10 n.natAbs

/- The text of an integer. -/
theorem toList_toString (n : Int) :
    (toString n).toList = digitsOf n := by
  cases n with
  | ofNat k =>
    have hText : toString (Int.ofNat k) = toString k := rfl
    have hNatural : ¬Int.ofNat k < 0 := by simp
    rw [hText, digitsOf, if_neg hNatural,
      Nat.toString_eq_ofList_toDigits, String.toList_ofList]
    rfl
  | negSucc k =>
    have hText : toString (Int.negSucc k)
        = "-" ++ toString (k + 1) := rfl
    have hNegative : (Int.negSucc k).natAbs = k + 1 := rfl
    rw [hText, digitsOf, if_pos (Int.negSucc_lt_zero k), hNegative,
      String.toList_append, Nat.toString_eq_ofList_toDigits,
      String.toList_ofList, String.toList_ofList,
      List.singleton_append]

/- What follows a minus sign is an unsigned number. -/
theorem numberOf_minus
    {ds : List Char}
    {p : NumberParts}
    (hParts : numberParts? ds = some p)
    (hWhole : p.isWhole = true)
    (hRange : isInteger (-(digitsValue p.whole)) = true)
    (hNonzero : ¬(-(digitsValue p.whole) : Int) = 0) :
    numberOf? ('-' :: ds) = some (.int (-(digitsValue p.whole))) := by
  unfold numberOf?
  split
  rename_i negative ds' hSign
  cases hSign
  rw [hParts]
  dsimp only
  rw [if_pos rfl, if_pos ⟨hWhole, hRange, fun h => hNonzero h.2⟩]

/- The text of an integer is read back as the integer. -/
theorem numberOf_int
    {n : Int}
    (h : isInteger n = true) :
    numberOf? (digitsOf n) = some (.int n) := by
  have hDigits := numberParts_toDigits n.natAbs
  have hValue := digitsValue_toDigits n.natAbs
  unfold digitsOf
  by_cases hNegative : n < 0
  · have hInt : -(n.natAbs : Int) = n := by omega
    have hZero : ¬n = 0 := by omega
    rw [← hValue] at hInt
    have hRead := numberOf_minus hDigits rfl (by rwa [hInt])
      (by rwa [hInt])
    rw [if_pos hNegative, hRead, hInt]
  · have hInt : (n.natAbs : Int) = n := by omega
    rw [if_neg hNegative]
    unfold numberOf?
    split
    rename_i negative ds hSign
    have hPlain :
        negative = false ∧ ds = Nat.toDigits 10 n.natAbs := by
      split at hSign
      · rename_i r hMinus
        have hDigit := all_isDigit n.natAbs '-' (by rw [hMinus]; simp)
        exact absurd hDigit (by decide)
      · cases hSign
        exact ⟨rfl, rfl⟩
    rcases hPlain with ⟨rfl, rfl⟩
    rw [hDigits]
    dsimp only
    rw [if_neg Bool.false_ne_true, hValue, hInt,
      if_pos ⟨rfl, h, by simp⟩]

/- Every character of an integer belongs to a number. -/
theorem isNumberChar_digitsOf
    (n : Int) : ∀ c ∈ digitsOf n, isNumberChar c = true := by
  intro c hc
  have hDigit : ∀ c ∈ Nat.toDigits 10 n.natAbs,
      isNumberChar c = true := by
    intro c hc
    unfold isNumberChar
    rw [all_isDigit n.natAbs c hc]
    rfl
  unfold digitsOf at hc
  split at hc
  · rcases List.mem_cons.mp hc with rfl | hc
    · rfl
    · exact hDigit c hc
  · exact hDigit c hc

/- An integer is read back up to where no number goes on. -/
theorem readNumber_int
    {n : Int}
    (h : isInteger n = true)
    {rest : List Char}
    (hRest : Stops rest) :
    readNumber (digitsOf n ++ rest) = some (.int n, rest) := by
  have hTake : (digitsOf n ++ rest).takeWhile isNumberChar
      = digitsOf n := by
    rw [List.takeWhile_append_of_pos (isNumberChar_digitsOf n)]
    cases rest with
    | nil => simp
    | cons c rest =>
      rw [List.takeWhile_cons_of_neg, List.append_nil]
      simp [hRest c rfl]
  have hDrop : (digitsOf n ++ rest).dropWhile isNumberChar
      = rest := by
    rw [List.dropWhile_append_of_pos (isNumberChar_digitsOf n)]
    cases rest with
    | nil => rfl
    | cons c rest =>
      rw [List.dropWhile_cons_of_neg]
      simp [hRest c rfl]
  unfold readNumber
  rw [hTake, hDrop, numberOf_int h]
  rfl

------------------------------------------------------------
-- Values
------------------------------------------------------------

mutual

/-
  Whether a document can be read where `depth` brackets are
  allowed: its numbers are integers and its brackets nest no
  deeper.
-/
def fits (depth : Nat) : Json → Bool
  | .null => true
  | .bool _ => true
  | .int n => isInteger n
  | .otherNumber _ => false
  | .str _ => true
  | .arr items =>
    match depth with
    | 0 => false
    | depth + 1 => fitsItems depth items
  | .obj members =>
    match depth with
    | 0 => false
    | depth + 1 => fitsMembers depth members

/- Whether all items of an array can be read. -/
def fitsItems (depth : Nat) : List Json → Bool
  | [] => true
  | j :: rest => j.fits depth && fitsItems depth rest

/- Whether all members of an object can be read. -/
def fitsMembers (depth : Nat) : List (String × Json) → Bool
  | [] => true
  | (_, j) :: rest => j.fits depth && fitsMembers depth rest

end

/- Whether a character starts the text of a document. -/
def isStart (c : Char) : Bool :=
  c == 'n' || c == 't' || c == 'f' || c == '\x22' || c == '['
    || c == '\x7b' || c == '-' || c.isDigit

/- A start is no blank and closes no bracket. -/
theorem isStart_plain
    {c : Char}
    (h : isStart c = true) :
    isBlank c = false ∧ c ≠ ']' ∧ c ≠ '\x7d' := by
  refine ⟨?_, ?_, ?_⟩
  · cases hBlank : isBlank c with
    | false => rfl
    | true =>
      unfold isBlank at hBlank
      simp only [Bool.or_eq_true, beq_iff_eq] at hBlank
      rcases hBlank with ((rfl | rfl) | rfl) | rfl <;>
        exact absurd h (by decide)
  · rintro rfl
    exact absurd h (by decide)
  · rintro rfl
    exact absurd h (by decide)

/- The text of an integer starts with a sign or a digit. -/
theorem digitsOf_start (n : Int) :
    ∃ c cs, digitsOf n = c :: cs
      ∧ (c = '-' ∨ c.isDigit = true) := by
  unfold digitsOf
  split
  · exact ⟨_, _, rfl, .inl rfl⟩
  · cases hDigits : Nat.toDigits 10 n.natAbs with
    | nil => exact absurd hDigits Nat.toDigits_ne_nil
    | cons c cs =>
      have hDigit := all_isDigit n.natAbs c (by simp [hDigits])
      exact ⟨c, cs, rfl, .inr hDigit⟩

/- The text of an array. -/
theorem toList_compact_arr (items : List Json) :
    (compact (.arr items)).toList
      = '[' :: ((compactItems items).toList ++ [']']) := by
  simp [compact]

/- The text of an object. -/
theorem toList_compact_obj (members : List (String × Json)) :
    (compact (.obj members)).toList
      = '\x7b' :: ((compactMembers members).toList ++ ['\x7d']) := by
  simp [compact]

/- The text of a document that fits starts like a document. -/
theorem compact_start
    {depth : Nat}
    {j : Json}
    (h : j.fits depth = true) :
    ∃ c cs, j.compact.toList = c :: cs ∧ isStart c = true := by
  cases j with
  | null => exact ⟨_, _, rfl, rfl⟩
  | bool b =>
    cases b with
    | false => exact ⟨_, _, rfl, rfl⟩
    | true => exact ⟨_, _, rfl, rfl⟩
  | int n =>
    rcases digitsOf_start n with ⟨c, cs, hText, hStart⟩
    refine ⟨c, cs, (toList_toString n).trans hText, ?_⟩
    rcases hStart with rfl | hDigit
    · rfl
    · simp [isStart, hDigit]
  | otherNumber s => cases h
  | str s => exact ⟨_, _, toList_quoted s, rfl⟩
  | arr items => exact ⟨_, _, toList_compact_arr items, rfl⟩
  | obj members => exact ⟨_, _, toList_compact_obj members, rfl⟩

/- Nothing is skipped in front of what is no blank. -/
theorem skipBlanks_cons
    {c : Char}
    (h : isBlank c = false)
    (cs : List Char) : skipBlanks (c :: cs) = c :: cs := by
  unfold skipBlanks
  rw [List.dropWhile_cons_of_neg]
  simp [h]

variable {fuel depth : Nat}

-- Reading is unfolded wherever a step of fuel is left.
attribute [local simp] readValue readItems readMembers

/- A word is read as the value it names. -/
theorem readValue_null (rest : List Char) :
    readValue (fuel + 1) depth ("null".toList ++ rest)
      = some (.null, rest) := by
  simp [skipBlanks, isBlank]

/- A truth value is read back. -/
theorem readValue_bool
    (b : Bool)
    (rest : List Char) :
    readValue (fuel + 1) depth ((compact (.bool b)).toList ++ rest)
      = some (.bool b, rest) := by
  cases b <;> simp [compact, skipBlanks, isBlank]

/- A string is read back. -/
theorem readValue_quoted
    (s : String)
    (rest : List Char) :
    readValue (fuel + 1) depth ((quoted s).toList ++ rest)
      = some (.str s, rest) := by
  rw [toList_quoted, List.cons_append, List.append_assoc,
    List.singleton_append]
  simp [skipBlanks, isBlank, readString_quoted]

/- What starts an integer starts nothing else. -/
theorem digit_plain
    {c : Char}
    (h : c = '-' ∨ c.isDigit = true) :
    isBlank c = false ∧ c ≠ 'n' ∧ c ≠ 't' ∧ c ≠ 'f'
      ∧ c ≠ '\x22' ∧ c ≠ '[' ∧ c ≠ '\x7b' := by
  rcases h with rfl | hDigit
  · decide
  · have hStart : isStart c = true := by simp [isStart, hDigit]
    refine ⟨(isStart_plain hStart).1, ?_, ?_, ?_, ?_, ?_, ?_⟩
    all_goals
      rintro rfl
      exact absurd hDigit (by decide)

/- An integer is read back. -/
theorem readValue_int
    {n : Int}
    (h : isInteger n = true)
    {rest : List Char}
    (hRest : Stops rest) :
    readValue (fuel + 1) depth (digitsOf n ++ rest)
      = some (.int n, rest) := by
  have hRead := readNumber_int h hRest
  rcases digitsOf_start n with ⟨c, cs, hText, hStart⟩
  rw [hText, List.cons_append] at hRead ⊢
  rcases digit_plain hStart with
    ⟨hBlank, hNull, hTrue, hFalse, hQuote, hArray, hObject⟩
  rw [readValue, skipBlanks_cons hBlank]
  simp [hNull, hTrue, hFalse, hQuote, hArray, hObject, hRead]

/- An opened array goes on with its items. -/
theorem readValue_arr
    {c : Char}
    (hc : isStart c = true)
    (cs : List Char) :
    readValue (fuel + 1) (depth + 1) ('[' :: c :: cs)
      = (readItems fuel depth (c :: cs)).map fun (js, rest) =>
          (.arr js, rest) := by
  rcases isStart_plain hc with ⟨hBlank, hClose, _⟩
  have hOpen : isBlank '[' = false := rfl
  rw [readValue, skipBlanks_cons hOpen]
  simp [skipBlanks_cons hBlank, hClose]

/- An opened object goes on with its members. -/
theorem readValue_obj (cs : List Char) :
    readValue (fuel + 1) (depth + 1) ('\x7b' :: '\x22' :: cs)
      = (readMembers fuel depth ('\x22' :: cs)).map
          fun (ms, rest) => (.obj ms, rest) := by
  simp [skipBlanks, isBlank]

/- The text of several items. -/
theorem toList_compactItems
    (j k : Json)
    (rest : List Json) :
    (compactItems (j :: k :: rest)).toList
      = j.compact.toList
        ++ ',' :: (compactItems (k :: rest)).toList := by
  simp [compactItems]

/- The text of a member. -/
theorem toList_compactMember
    (key : String)
    (j : Json) :
    (compactMembers [(key, j)]).toList
      = (quoted key).toList ++ ':' :: j.compact.toList := by
  simp [compactMembers]

/- The text of several members. -/
theorem toList_compactMembers
    (key : String)
    (j : Json)
    (m : String × Json)
    (rest : List (String × Json)) :
    (compactMembers ((key, j) :: m :: rest)).toList
      = (quoted key).toList ++ ':' :: (j.compact.toList
        ++ ',' :: (compactMembers (m :: rest)).toList) := by
  simp [compactMembers]

/- The items of an array that fits start like a document. -/
theorem compactItems_start
    {j : Json}
    (h : j.fits depth = true)
    (rest : List Json) :
    ∃ c cs, (compactItems (j :: rest)).toList = c :: cs
      ∧ isStart c = true := by
  rcases compact_start h with ⟨c, cs, hText, hStart⟩
  cases rest with
  | nil => exact ⟨c, cs, hText, hStart⟩
  | cons k rest =>
    rw [toList_compactItems, hText]
    exact ⟨c, _, rfl, hStart⟩

/- The members of an object start with a quote. -/
theorem compactMembers_start
    (key : String)
    (j : Json)
    (rest : List (String × Json)) :
    ∃ cs, (compactMembers ((key, j) :: rest)).toList
      = '\x22' :: cs := by
  cases rest with
  | nil =>
    rw [toList_compactMember, toList_quoted]
    exact ⟨_, rfl⟩
  | cons m rest =>
    rw [toList_compactMembers, toList_quoted]
    exact ⟨_, rfl⟩

/- No number goes on with what separates or closes. -/
theorem stops_cons
    {c : Char}
    (h : isNumberChar c = false)
    (cs : List Char) : Stops (c :: cs) := by
  intro d hd
  cases hd
  exact h

/- The last item of an array. -/
theorem readItems_last
    {j : Json}
    {cs rest : List Char}
    (h : readValue fuel depth cs = some (j, ']' :: rest)) :
    readItems (fuel + 1) depth cs = some ([j], rest) := by
  rw [readItems, h]
  simp [skipBlanks, isBlank]

/- An item of an array that is followed by another. -/
theorem readItems_more
    {j : Json}
    {js : List Json}
    {cs cs' rest : List Char}
    (h : readValue fuel depth cs = some (j, ',' :: cs'))
    (hMore : readItems fuel depth cs' = some (js, rest)) :
    readItems (fuel + 1) depth cs = some (j :: js, rest) := by
  rw [readItems, h]
  simp [skipBlanks, isBlank, hMore]

/- The last member of an object. -/
theorem readMembers_last
    {key : String}
    {j : Json}
    {cs rest : List Char}
    (h : readValue fuel depth cs = some (j, '\x7d' :: rest)) :
    readMembers (fuel + 1) depth ((quoted key).toList ++ ':' :: cs)
      = some ([(key, j)], rest) := by
  rw [toList_quoted, List.cons_append, List.append_assoc,
    List.singleton_append]
  simp [skipBlanks, isBlank, readString_quoted, h]

/- A member of an object that is followed by another. -/
theorem readMembers_more
    {key : String}
    {j : Json}
    {ms : List (String × Json)}
    {cs cs' rest : List Char}
    (h : readValue fuel depth cs = some (j, ',' :: cs'))
    (hMore : readMembers fuel depth cs' = some (ms, rest)) :
    readMembers (fuel + 1) depth ((quoted key).toList ++ ':' :: cs)
      = some ((key, j) :: ms, rest) := by
  rw [toList_quoted, List.cons_append, List.append_assoc,
    List.singleton_append]
  simp [skipBlanks, isBlank, readString_quoted, h, hMore]

/- Whether the fuel suffices for every document that fits. -/
def ReadsValues (fuel : Nat) : Prop :=
  ∀ (depth : Nat) (j : Json) (rest : List Char),
    j.fits depth = true →
    2 * j.compact.toList.length ≤ fuel →
    Stops rest →
    readValue fuel depth (j.compact.toList ++ rest) = some (j, rest)

/- Whether the fuel suffices for all items that fit. -/
def ReadsItems (fuel : Nat) : Prop :=
  ∀ (depth : Nat) (j : Json) (items : List Json) (rest : List Char),
    fitsItems depth (j :: items) = true →
    2 * (compactItems (j :: items)).toList.length < fuel →
    readItems fuel depth
        ((compactItems (j :: items)).toList ++ ']' :: rest)
      = some (j :: items, rest)

/- Whether the fuel suffices for all members that fit. -/
def ReadsMembers (fuel : Nat) : Prop :=
  ∀ (depth : Nat) (key : String) (j : Json)
    (members : List (String × Json)) (rest : List Char),
    fitsMembers depth ((key, j) :: members) = true →
    2 * (compactMembers ((key, j) :: members)).toList.length < fuel →
    readMembers fuel depth
        ((compactMembers ((key, j) :: members)).toList
          ++ '\x7d' :: rest)
      = some ((key, j) :: members, rest)

/- A document is read back if what it holds is. -/
theorem readsValues_succ
    (hItems : ReadsItems fuel)
    (hMembers : ReadsMembers fuel) :
    ReadsValues (fuel + 1) := by
  intro depth j rest hFits hFuel hRest
  cases j with
  | null => exact readValue_null rest
  | bool b => exact readValue_bool b rest
  | int n =>
    have hText : (compact (.int n)).toList = digitsOf n :=
      toList_toString n
    rw [hText]
    exact readValue_int hFits hRest
  | otherNumber s => cases hFits
  | str s => exact readValue_quoted s rest
  | arr items =>
    cases depth with
    | zero => cases hFits
    | succ depth =>
      rw [toList_compact_arr, List.length_cons, List.length_append,
        List.length_singleton] at hFuel
      rw [toList_compact_arr, List.cons_append, List.append_assoc,
        List.singleton_append]
      cases items with
      | nil => simp [compactItems, skipBlanks, isBlank]
      | cons j items =>
        have hFirst : j.fits depth = true :=
          (Bool.and_eq_true_iff.mp hFits).1
        have hRead := hItems depth j items rest hFits (by omega)
        rcases compactItems_start hFirst items with
          ⟨c, cs, hText, hStart⟩
        rw [hText, List.cons_append] at hRead ⊢
        rw [readValue_arr hStart, hRead]
        rfl
  | obj members =>
    cases depth with
    | zero => cases hFits
    | succ depth =>
      rw [toList_compact_obj, List.length_cons, List.length_append,
        List.length_singleton] at hFuel
      rw [toList_compact_obj, List.cons_append, List.append_assoc,
        List.singleton_append]
      cases members with
      | nil => simp [compactMembers, skipBlanks, isBlank]
      | cons m members =>
        rcases m with ⟨key, j⟩
        have hRead :=
          hMembers depth key j members rest hFits (by omega)
        rcases compactMembers_start key j members with ⟨cs, hText⟩
        rw [hText, List.cons_append] at hRead ⊢
        rw [readValue_obj, hRead]
        rfl

/- Items are read back one after another. -/
theorem readsItems_succ
    (hValues : ReadsValues fuel)
    (hItems : ReadsItems fuel) :
    ReadsItems (fuel + 1) := by
  intro depth j items rest hFits hFuel
  rcases Bool.and_eq_true_iff.mp hFits with ⟨hFirst, hOthers⟩
  cases items with
  | nil =>
    have hText : compactItems [j] = j.compact := rfl
    rw [hText] at hFuel ⊢
    have hRead := hValues depth j (']' :: rest) hFirst (by omega)
      (stops_cons rfl rest)
    exact readItems_last hRead
  | cons k items =>
    rw [toList_compactItems, List.length_append,
      List.length_cons] at hFuel
    have hRead := hValues depth j
      (',' :: ((compactItems (k :: items)).toList ++ ']' :: rest))
      hFirst (by omega) (stops_cons rfl _)
    have hMore := hItems depth k items rest hOthers (by omega)
    rw [toList_compactItems, List.append_assoc, List.cons_append]
    exact readItems_more hRead hMore

/- Members are read back one after another. -/
theorem readsMembers_succ
    (hValues : ReadsValues fuel)
    (hMembers : ReadsMembers fuel) :
    ReadsMembers (fuel + 1) := by
  intro depth key j members rest hFits hFuel
  rcases Bool.and_eq_true_iff.mp hFits with ⟨hFirst, hOthers⟩
  cases members with
  | nil =>
    rw [toList_compactMember, List.length_append,
      List.length_cons] at hFuel
    have hRead := hValues depth j ('\x7d' :: rest) hFirst (by omega)
      (stops_cons rfl rest)
    rw [toList_compactMember, List.append_assoc, List.cons_append]
    exact readMembers_last hRead
  | cons m members =>
    rcases m with ⟨key', k⟩
    rw [toList_compactMembers, List.length_append, List.length_cons,
      List.length_append, List.length_cons] at hFuel
    have hRead := hValues depth j
      (',' :: ((compactMembers ((key', k) :: members)).toList
        ++ '\x7d' :: rest))
      hFirst (by omega) (stops_cons rfl _)
    have hMore := hMembers depth key' k members rest hOthers (by omega)
    rw [toList_compactMembers, List.append_assoc, List.cons_append,
      List.append_assoc, List.cons_append]
    exact readMembers_more hRead hMore

/- By induction on the fuel, it suffices for everything that fits. -/
theorem reads
    (fuel : Nat) :
    ReadsValues fuel ∧ ReadsItems fuel ∧ ReadsMembers fuel := by
  induction fuel with
  | zero =>
    refine ⟨?_, ?_, ?_⟩
    · intro depth j rest hFits hFuel _
      rcases compact_start hFits with ⟨c, cs, hText, _⟩
      rw [hText, List.length_cons] at hFuel
      omega
    · intro _ _ _ _ _ hFuel
      omega
    · intro _ _ _ _ _ _ hFuel
      omega
  | succ fuel ih =>
    rcases ih with ⟨hValues, hItems, hMembers⟩
    exact ⟨readsValues_succ hItems hMembers,
      readsItems_succ hValues hItems,
      readsMembers_succ hValues hMembers⟩

------------------------------------------------------------
-- Whole texts
------------------------------------------------------------

/- The text of a document that fits is read back. -/
theorem ofText_compact
    {j : Json}
    (h : j.fits depth = true) :
    ofText? depth j.compact = some j := by
  have hStops : Stops [] := fun _ hc => nomatch hc
  have hRead := (reads (2 * j.compact.toList.length + 2)).1
    depth j [] h (by omega) hStops
  rw [List.append_nil] at hRead
  unfold ofText?
  dsimp only
  rw [hRead]
  rfl

end ExecTrace.Json
