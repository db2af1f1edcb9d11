import ExecTrace.Proofs.Documents
import ExecTrace.Text.Json.Record

/-
  Documents that nest too deep. The text of a document whose
  numbers are integers is read back as the document where its
  brackets nest no deeper than allowed, and refused elsewhere.

  Main declarations:
    * `Json.Readable`
    * `Json.refuses`
    * `Json.ofText_compact_eq`
-/

namespace ExecTrace.Json

variable {fuel depth : Nat}

------------------------------------------------------------
-- Documents that fit somewhere
------------------------------------------------------------

/- The items of an array fit if each of them does. -/
theorem fitsItems_iff
    {items : List Json} :
    fitsItems depth items = true ↔
      ∀ j ∈ items, j.fits depth = true := by
  induction items with
  | nil => simp [fitsItems]
  | cons j items ih => simp [fitsItems, ih]

/- The members of an object fit if the value of each of them does. -/
theorem fitsMembers_iff
    {members : List (String × Json)} :
    fitsMembers depth members = true ↔
      ∀ p ∈ members, p.2.fits depth = true := by
  induction members with
  | nil => simp [fitsMembers]
  | cons p members ih => simp [fitsMembers, ih]

mutual

/- What fits somewhere fits where more brackets are allowed. -/
theorem fits_mono
    {depth deeper : Nat}
    {j : Json}
    (hDeeper : depth ≤ deeper)
    (h : j.fits depth = true) : j.fits deeper = true := by
  cases j with
  | null => rfl
  | bool => rfl
  | int => exact h
  | otherNumber => cases h
  | str => rfl
  | arr items =>
    cases depth with
    | zero => cases h
    | succ depth =>
      cases deeper with
      | zero => omega
      | succ deeper => exact fitsItems_mono (by omega) h
  | obj members =>
    cases depth with
    | zero => cases h
    | succ depth =>
      cases deeper with
      | zero => omega
      | succ deeper => exact fitsMembers_mono (by omega) h

/- Items that fit somewhere fit where more is allowed. -/
theorem fitsItems_mono
    {depth deeper : Nat}
    {items : List Json}
    (hDeeper : depth ≤ deeper)
    (h : fitsItems depth items = true) :
    fitsItems deeper items = true := by
  cases items with
  | nil => rfl
  | cons j items =>
    rcases Bool.and_eq_true_iff.mp h with ⟨hFirst, hOthers⟩
    exact Bool.and_eq_true_iff.mpr
      ⟨fits_mono hDeeper hFirst, fitsItems_mono hDeeper hOthers⟩

/- Members that fit somewhere fit where more is allowed. -/
theorem fitsMembers_mono
    {depth deeper : Nat}
    {members : List (String × Json)}
    (hDeeper : depth ≤ deeper)
    (h : fitsMembers depth members = true) :
    fitsMembers deeper members = true := by
  cases members with
  | nil => rfl
  | cons p members =>
    rcases p with ⟨key, j⟩
    rcases Bool.and_eq_true_iff.mp h with ⟨hFirst, hOthers⟩
    exact Bool.and_eq_true_iff.mpr
      ⟨fits_mono hDeeper hFirst, fitsMembers_mono hDeeper hOthers⟩

end

/- A document that fits where enough brackets are allowed. -/
def Readable (j : Json) : Prop :=
  ∃ depth, j.fits depth = true

/- Some readable documents fit at one depth. -/
theorem exists_fits
    {js : List Json}
    (h : ∀ j ∈ js, j.Readable) :
    ∃ depth, ∀ j ∈ js, j.fits depth = true := by
  induction js with
  | nil => exact ⟨0, nofun⟩
  | cons j js ih =>
    rw [List.forall_mem_cons] at h
    rcases h with ⟨⟨first, hFirst⟩, hOthers⟩
    rcases ih hOthers with ⟨others, hOthers⟩
    refine ⟨max first others, List.forall_mem_cons.mpr ⟨?_, ?_⟩⟩
    · exact fits_mono (le_max_left first others) hFirst
    · intro k hk
      exact fits_mono (le_max_right first others) (hOthers k hk)

/- No value is readable. -/
@[simp]
theorem readable_null : Readable .null :=
  ⟨0, rfl⟩

/- A truth value is readable. -/
@[simp]
theorem readable_bool (b : Bool) : Readable (.bool b) :=
  ⟨0, rfl⟩

/- A string is readable. -/
@[simp]
theorem readable_str (s : String) : Readable (.str s) :=
  ⟨0, rfl⟩

/- An integer of at most 64 bits is readable. -/
theorem readable_int
    {n : Int}
    (h : isInteger n = true) : Readable (.int n) :=
  ⟨0, h⟩

/- The bounds of integers of at most 64 bits. -/
theorem isInteger_iff
    {n : Int} :
    isInteger n = true ↔
      -9223372036854775808 ≤ n ∧ n < 18446744073709551616 := by
  have hWords : Nat.pow 2 63 = 9223372036854775808
      ∧ Nat.pow 2 64 = 18446744073709551616 := by decide
  unfold isInteger
  rw [hWords.1, hWords.2, Bool.and_eq_true, decide_eq_true_eq,
    decide_eq_true_eq]
  rfl

/- A word of 32 bits is readable. -/
@[simp]
theorem readable_uint32 (n : UInt32) : Readable (ofNat n.toNat) := by
  have hBound := n.toNat_lt
  exact readable_int (isInteger_iff.mpr (by omega))

/- A word of 64 bits is readable. -/
@[simp]
theorem readable_uint64 (n : UInt64) : Readable (ofNat n.toNat) := by
  have hBound := n.toNat_lt
  exact readable_int (isInteger_iff.mpr (by omega))

/- An array of readable items is readable. -/
@[simp]
theorem readable_arr
    {items : List Json}
    (h : ∀ j ∈ items, j.Readable) : Readable (.arr items) := by
  rcases exists_fits h with ⟨depth, hItems⟩
  exact ⟨depth + 1, fitsItems_iff.mpr hItems⟩

/- An object of readable members is readable. -/
@[simp]
theorem readable_obj
    {members : List (String × Json)}
    (h : ∀ p ∈ members, p.2.Readable) : Readable (.obj members) := by
  rcases exists_fits (List.forall_mem_map.mpr h) with
    ⟨depth, hMembers⟩
  exact ⟨depth + 1,
    fitsMembers_iff.mpr (List.forall_mem_map.mp hMembers)⟩

/- An optional value is readable if every value is. -/
@[simp]
theorem readable_ofOption
    {α : Type}
    {encode : α → Json}
    (h : ∀ a, (encode a).Readable)
    (a : Option α) : Readable (ofOption encode a) := by
  cases a with
  | none => exact readable_null
  | some a => exact h a

------------------------------------------------------------
-- Documents that nest too deep
------------------------------------------------------------

/- No array is read where no bracket is allowed. -/
theorem readValue_arr_zero (cs : List Char) :
    readValue fuel 0 ('[' :: cs) = none := by
  cases fuel with
  | zero => rfl
  | succ fuel => simp [readValue, skipBlanks, isBlank]

/- No object is read where no bracket is allowed. -/
theorem readValue_obj_zero (cs : List Char) :
    readValue fuel 0 ('\x7b' :: cs) = none := by
  cases fuel with
  | zero => rfl
  | succ fuel => simp [readValue, skipBlanks, isBlank]

/- Without the first item no items are read. -/
theorem readItems_none
    {cs : List Char}
    (h : readValue fuel depth cs = none) :
    readItems (fuel + 1) depth cs = none := by
  rw [readItems, h]

/- Without the other items no items are read. -/
theorem readItems_more_none
    {j : Json}
    {cs cs' : List Char}
    (h : readValue fuel depth cs = some (j, ',' :: cs'))
    (hMore : readItems fuel depth cs' = none) :
    readItems (fuel + 1) depth cs = none := by
  rw [readItems, h]
  simp [skipBlanks, isBlank, hMore]

/- Without the value of the first member no members are read. -/
theorem readMembers_none
    {key : String}
    {cs : List Char}
    (h : readValue fuel depth cs = none) :
    readMembers (fuel + 1) depth ((quoted key).toList ++ ':' :: cs)
      = none := by
  rw [toList_quoted, List.cons_append, List.append_assoc,
    List.singleton_append]
  simp [readMembers, skipBlanks, isBlank, readString_quoted, h]

/- Without the other members no members are read. -/
theorem readMembers_more_none
    {key : String}
    {j : Json}
    {cs cs' : List Char}
    (h : readValue fuel depth cs = some (j, ',' :: cs'))
    (hMore : readMembers fuel depth cs' = none) :
    readMembers (fuel + 1) depth ((quoted key).toList ++ ':' :: cs)
      = none := by
  rw [toList_quoted, List.cons_append, List.append_assoc,
    List.singleton_append]
  simp [readMembers, skipBlanks, isBlank, readString_quoted, h, hMore]

/- Whether every document that fits elsewhere only is refused. -/
def RefusesValues (fuel : Nat) : Prop :=
  ∀ (depth deeper : Nat) (j : Json) (rest : List Char),
    j.fits deeper = true →
    j.fits depth = false →
    2 * j.compact.toList.length ≤ fuel →
    readValue fuel depth (j.compact.toList ++ rest) = none

/- Whether all items that fit elsewhere only are refused. -/
def RefusesItems (fuel : Nat) : Prop :=
  ∀ (depth deeper : Nat) (j : Json) (items : List Json)
    (rest : List Char),
    fitsItems deeper (j :: items) = true →
    fitsItems depth (j :: items) = false →
    2 * (compactItems (j :: items)).toList.length < fuel →
    readItems fuel depth
        ((compactItems (j :: items)).toList ++ ']' :: rest) = none

/- Whether all members that fit elsewhere only are refused. -/
def RefusesMembers (fuel : Nat) : Prop :=
  ∀ (depth deeper : Nat) (key : String) (j : Json)
    (members : List (String × Json)) (rest : List Char),
    fitsMembers deeper ((key, j) :: members) = true →
    fitsMembers depth ((key, j) :: members) = false →
    2 * (compactMembers ((key, j) :: members)).toList.length < fuel →
    readMembers fuel depth
        ((compactMembers ((key, j) :: members)).toList
          ++ '\x7d' :: rest) = none

/- A document is refused if what it holds is. -/
theorem refusesValues_succ
    (hItems : RefusesItems fuel)
    (hMembers : RefusesMembers fuel) :
    RefusesValues (fuel + 1) := by
  intro depth deeper j rest hFits hRefused hFuel
  cases j with
  | null => cases hRefused
  | bool => cases hRefused
  | int => exact absurd (hFits.symm.trans hRefused) (by decide)
  | otherNumber => cases hFits
  | str => cases hRefused
  | arr items =>
    rw [toList_compact_arr, List.length_cons, List.length_append,
      List.length_singleton] at hFuel
    rw [toList_compact_arr, List.cons_append, List.append_assoc,
      List.singleton_append]
    cases depth with
    | zero => exact readValue_arr_zero _
    | succ depth =>
      cases deeper with
      | zero => cases hFits
      | succ deeper =>
        cases items with
        | nil => cases hRefused
        | cons j items =>
          have hFirst : j.fits deeper = true :=
            (Bool.and_eq_true_iff.mp hFits).1
          have hRead := hItems depth deeper j items rest hFits
            hRefused (by omega)
          rcases compactItems_start hFirst items with
            ⟨c, cs, hText, hStart⟩
          rw [hText, List.cons_append] at hRead ⊢
          rw [readValue_arr hStart, hRead]
          rfl
  | obj members =>
    rw [toList_compact_obj, List.length_cons, List.length_append,
      List.length_singleton] at hFuel
    rw [toList_compact_obj, List.cons_append, List.append_assoc,
      List.singleton_append]
    cases depth with
    | zero => exact readValue_obj_zero _
    | succ depth =>
      cases deeper with
      | zero => cases hFits
      | succ deeper =>
        cases members with
        | nil => cases hRefused
        | cons m members =>
          rcases m with ⟨key, j⟩
          have hRead := hMembers depth deeper key j members rest
            hFits hRefused (by omega)
          rcases compactMembers_start key j members with ⟨cs, hText⟩
          rw [hText, List.cons_append] at hRead ⊢
          rw [readValue_obj, hRead]
          rfl

/- Items are refused if one of them is. -/
theorem refusesItems_succ
    (hValues : RefusesValues fuel)
    (hItems : RefusesItems fuel) :
    RefusesItems (fuel + 1) := by
  intro depth deeper j items rest hFits hRefused hFuel
  rcases Bool.and_eq_true_iff.mp hFits with ⟨hFirst, hOthers⟩
  cases items with
  | nil =>
    have hText : compactItems [j] = j.compact := rfl
    have hOnly : j.fits depth = false := by
      simpa [fitsItems] using hRefused
    rw [hText] at hFuel ⊢
    exact readItems_none
      (hValues depth deeper j _ hFirst hOnly (by omega))
  | cons k items =>
    rw [toList_compactItems, List.length_append,
      List.length_cons] at hFuel
    rw [toList_compactItems, List.append_assoc, List.cons_append]
    cases hHere : j.fits depth with
    | false =>
      exact readItems_none
        (hValues depth deeper j _ hFirst hHere (by omega))
    | true =>
      have hRest : fitsItems depth (k :: items) = false := by
        simpa [fitsItems, hHere] using hRefused
      exact readItems_more_none
        ((reads fuel).1 depth j _ hHere (by omega) (stops_cons rfl _))
        (hItems depth deeper k items rest hOthers hRest (by omega))

/- Members are refused if the value of one of them is. -/
theorem refusesMembers_succ
    (hValues : RefusesValues fuel)
    (hMembers : RefusesMembers fuel) :
    RefusesMembers (fuel + 1) := by
  intro depth deeper key j members rest hFits hRefused hFuel
  rcases Bool.and_eq_true_iff.mp hFits with ⟨hFirst, hOthers⟩
  cases members with
  | nil =>
    have hOnly : j.fits depth = false := by
      simpa [fitsMembers] using hRefused
    rw [toList_compactMember, List.length_append,
      List.length_cons] at hFuel
    rw [toList_compactMember, List.append_assoc, List.cons_append]
    exact readMembers_none
      (hValues depth deeper j _ hFirst hOnly (by omega))
  | cons m members =>
    rcases m with ⟨key', k⟩
    rw [toList_compactMembers, List.length_append, List.length_cons,
      List.length_append, List.length_cons] at hFuel
    rw [toList_compactMembers, List.append_assoc, List.cons_append,
      List.append_assoc, List.cons_append]
    cases hHere : j.fits depth with
    | false =>
      exact readMembers_none
        (hValues depth deeper j _ hFirst hHere (by omega))
    | true =>
      have hRest :
          fitsMembers depth ((key', k) :: members) = false := by
        simpa [fitsMembers, hHere] using hRefused
      exact readMembers_more_none
        ((reads fuel).1 depth j _ hHere (by omega) (stops_cons rfl _))
        (hMembers depth deeper key' k members rest hOthers hRest
          (by omega))

/- By induction on the fuel, what fits elsewhere only is refused. -/
theorem refuses
    (fuel : Nat) :
    RefusesValues fuel ∧ RefusesItems fuel ∧ RefusesMembers fuel := by
  induction fuel with
  | zero => exact ⟨fun _ _ _ _ _ _ _ => rfl,
      fun _ _ _ _ _ _ _ _ => rfl, fun _ _ _ _ _ _ _ _ _ => rfl⟩
  | succ fuel ih =>
    rcases ih with ⟨hValues, hItems, hMembers⟩
    exact ⟨refusesValues_succ hItems hMembers,
      refusesItems_succ hValues hItems,
      refusesMembers_succ hValues hMembers⟩

/-
  The text of a readable document is read back as the document
  where it fits, and refused elsewhere.
-/
theorem ofText_compact_eq
    {j : Json}
    (h : j.Readable) :
    ofText? depth j.compact
      = if j.fits depth then some j else none := by
  rcases h with ⟨deeper, hDeeper⟩
  cases hFits : j.fits depth with
  | true => exact ofText_compact hFits
  | false =>
    have hRead := (refuses (2 * j.compact.toList.length + 2)).1
      depth deeper j [] hDeeper hFits (by omega)
    rw [List.append_nil] at hRead
    unfold ofText?
    dsimp only
    rw [hRead]
    rfl

end ExecTrace.Json
