import Calculator.Json.Record
import Calculator.Proofs.Json.Tree
import Calculator.Proofs.Number.Positional

/-!
# `Proofs.Json.Record` — values are found where they were put

What is written is a document whose parts can be written, whatever the texts and numbers in it are. In the
document a text is found again as it was, and so are a natural number that fits its bits and a list of
values of one kind. A record has every field under its name if no two of them have the same name. A number
that is not finite is written as `null`, and that is no number.

## Contents

* `text?_ofText`, `choice?_ofText` — texts and words
* `natural?_ofNat`, `float?_ofFloat_of_infinite` — numbers
* `list?_map_eq_some_iff` — lists
* `fields?_ofFields_of_subset`, `fields?_ofFields` — records
* `printable_ofText`, `printable_ofNat`, `printable_ofFloat`, `printable_ofFields` — how they are written
-/

namespace Calculator.Json

section

variable {α β : Type} {digits : List Char} {d : Decimal} {x : Float} {n bits : Nat}

/-! ## Texts -/

/-- A text is found as it was. -/
theorem text?_ofText (text : String) : (ofText text).text? = some text := by
  show (textOf? (text.toList.map Piece.ofChar)).map String.ofList = some text
  rw [textOf?_ofChar, Option.map_some, String.ofList_toList]

/-- A word stands for what it stands for among the choices. -/
theorem choice?_ofText (choices : List (String × α)) (text : String) :
    choice? choices (ofText text) = choices.lookup text := by
  show ((textOf? (text.toList.map Piece.ofChar)).map String.ofList).bind (choices.lookup ·) = _
  rw [textOf?_ofChar, Option.map_some, String.ofList_toList, Option.bind_some]

theorem printable_pieces (text : String) :
    ∀ piece ∈ text.toList.map Piece.ofChar, piece.Printable := by
  intro piece hmem
  obtain ⟨c, -, rfl⟩ := List.mem_map.mp hmem
  exact printable_ofChar c

theorem printable_ofText (text : String) : Printable (ofText text) := .string (printable_pieces text)

/-! ## Numbers -/

theorem isWholePart_of_head (hne : digits ≠ []) (hhead : digits.head? ≠ some '0') :
    isWholePart digits = true := by
  cases digits with
  | nil => exact absurd rfl hne
  | cons c rest =>
      have hc : c ≠ '0' := by simpa using hhead
      unfold isWholePart
      split
      · rename_i heq
        exact absurd heq (List.cons_ne_nil _ _)
      · rfl
      · rename_i heq
        rw [← (List.cons.inj heq).1]
        exact decide_eq_true hc

theorem isWholePart_toDigits (n : Nat) : isWholePart (Nat.toDigits 10 n) = true := by
  by_cases hzero : n = 0
  · rw [hzero]
    rfl
  · exact isWholePart_of_head Nat.toDigits_ne_nil (head?_toDigits_ne_zero hzero)

/-- A natural number is found as it was if it fits its bits. -/
theorem natural?_ofNat (h : n < 2 ^ bits) : natural? bits (ofNat n) = some n := by
  unfold natural? ofNat Numeral.ofNat Numeral.toNatural?
  simp only [Nat.ofDigitChars_ten_toDigits, Bool.not_false, Nat.pow_eq, h, and_self, if_true]

theorem printable_ofNat (n : Nat) : Printable (ofNat n) :=
  .number ⟨isWholePart_toDigits n, isDigit_of_mem_toDigits, by simp [Numeral.ofNat]⟩

/-- A decimal that is not zero is written with a digit in front that is not zero, or with a zero alone. -/
theorem printable_ofDecimal (h : d.coefficient ≠ 0) (negative : Bool) :
    (Numeral.ofDecimal negative d).Printable := by
  have hdigits := isDigit_of_mem_digits d
  obtain ⟨first, tail, heq⟩ := List.exists_cons_of_ne_nil
    (Nat.toDigits_ne_nil (b := 10) (n := d.coefficient))
  have hfirst : first ≠ '0' := by
    have hhead := head?_toDigits_ne_zero h
    rw [heq] at hhead
    simpa using hhead
  have heq' : d.digits = first :: tail := heq
  have hwhole : ∀ rest, isWholePart (first :: rest) = true := fun rest =>
    isWholePart_of_head (List.cons_ne_nil _ _) (by simpa using hfirst)
  have htake : ∀ n, ∀ c ∈ d.digits.take n, c.isDigit = true := fun n c hc =>
    hdigits c (List.mem_of_mem_take hc)
  have hdrop : ∀ n, ∀ c ∈ d.digits.drop n, c.isDigit = true := fun n c hc =>
    hdigits c (List.mem_of_mem_drop hc)
  have hzeros : ∀ n, ∀ c ∈ List.replicate n '0', c.isDigit = true := fun n c hc =>
    isDigit_of_mem_zeros c hc
  unfold Numeral.ofDecimal
  simp only
  split_ifs with hfar hsmall hinteger
  · refine ⟨?_, htake 1, hdrop 1⟩
    rw [heq']
    exact hwhole _
  · refine ⟨rfl, by simp, fun c hc => ?_⟩
    exact (List.mem_append.mp hc).elim (hzeros _ c) (hdigits c)
  · refine ⟨?_, fun c hc => (List.mem_append.mp hc).elim (hdigits c) (hzeros _ c), by simp⟩
    rw [heq']
    exact hwhole _
  · refine ⟨?_, htake _, hdrop _⟩
    obtain ⟨k, hk⟩ : ∃ k, ((d.digits.length : Int) + d.exponent).toNat = k + 1 :=
      ⟨_, (Nat.succ_pred_eq_of_pos (by omega)).symm⟩
    rw [hk, heq', List.take_succ_cons]
    exact hwhole _

/-- The shortest decimal of a number that is not zero is not zero. -/
theorem shortest_ne_zero {coefficient : Nat} {exponent : Int}
    (hx : Binary64.ofFloat x = .finite false coefficient exponent) (hne : coefficient ≠ 0) :
    (Decimal.shortest x coefficient exponent).coefficient ≠ 0 := by
  intro hzero
  have hback := Decimal.toFloat_shortest hx hne
  have hnone : Binary64.ofFloat (Binary64.nearest false (Ratio.ofNat 0)) =
      .finite false 0 Binary64.leastExponent := rfl
  rw [Decimal.toFloat_zero hzero] at hback
  rw [← hback, hnone, Binary64.finite.injEq] at hx
  exact hne hx.2.1.symm

theorem printable_ofFloat (x : Float) : Printable (ofFloat x) := by
  unfold ofFloat Numeral.ofFloat?
  cases hx : Binary64.ofFloat x with
  | notANumber => exact .null
  | infinite negative => exact .null
  | finite negative coefficient exponent =>
      refine .number ?_
      by_cases hzero : coefficient = 0
      · rw [if_pos hzero]
        exact ⟨rfl, by simp, by simp⟩
      · rw [if_neg hzero]
        exact printable_ofDecimal (shortest_ne_zero (Binary64.ofFloat_abs hx) hzero) negative

/-- A number that is not finite is not found. -/
theorem float?_ofFloat_of_infinite (h : x.isFinite = false) : (ofFloat x).float? = none := by
  unfold ofFloat Numeral.ofFloat?
  cases hx : Binary64.ofFloat x with
  | notANumber => rfl
  | infinite negative => rfl
  | finite negative coefficient exponent =>
      rw [Binary64.isFinite_of_ofFloat hx] at h
      exact absurd h (by decide)

/-! ## Lists -/

theorem mapM_eq_some {f : α → Option β} {g : α → β} {values : List α}
    (h : ∀ value ∈ values, f value = some (g value)) : values.mapM f = some (values.map g) := by
  induction values with
  | nil => rfl
  | cons value values ih =>
      rw [List.mapM_cons, h value List.mem_cons_self, ih fun v hv => h v (List.mem_cons_of_mem _ hv)]
      rfl

/-- A list is found as it was if and only if each of its elements is. -/
theorem list?_map_eq_some_iff {write : α → Json} {read? : Json → Option α} {values : List α} :
    list? read? (.array (values.map write)) = some values ↔
      ∀ value ∈ values, read? (write value) = some value := by
  have hcompose : list? read? (.array (values.map write)) = values.mapM (read? ∘ write) := List.mapM_map
  rw [hcompose]
  constructor
  · intro h
    induction values with
    | nil => exact fun _ hvalue => absurd hvalue List.not_mem_nil
    | cons value values ih =>
        rw [List.mapM_cons] at h
        obtain ⟨first, hfirst, h⟩ := Option.bind_eq_some_iff.mp h
        obtain ⟨others, hothers, h⟩ := Option.bind_eq_some_iff.mp h
        obtain ⟨rfl, rfl⟩ := List.cons.inj (Option.some.inj h)
        exact List.forall_mem_cons.mpr ⟨hfirst, ih List.mapM_map hothers⟩
  · intro h
    exact (mapM_eq_some h).trans (by rw [List.map_id'])

/-! ## Records -/

theorem filter_name_of_nodup {fields : List (String × Json)} (h : (fields.map Prod.fst).Nodup)
    {field : String × Json} (hmem : field ∈ fields) :
    fields.filter (fun member => member.1 == field.1) = [field] := by
  induction fields with
  | nil => exact absurd hmem List.not_mem_nil
  | cons first others ih =>
      rw [List.map_cons, List.nodup_cons] at h
      obtain ⟨hfirst, hothers⟩ := h
      rcases List.mem_cons.mp hmem with rfl | hmem
      · have hnone : others.filter (fun member => member.1 == field.1) = [] := by
          rw [List.filter_eq_nil_iff]
          intro member hother heq
          exact hfirst (beq_iff_eq.mp heq ▸ List.mem_map_of_mem hother)
        rw [List.filter_cons_of_pos (by simp), hnone]
      · have hne : first.1 ≠ field.1 := fun heq => hfirst (heq ▸ List.mem_map_of_mem hmem)
        rw [List.filter_cons_of_neg (by simpa using hne), ih hothers hmem]

/-- Some fields of a record are found under their names, whatever others there are. -/
theorem fields?_ofFields_of_subset {fields asked : List (String × Json)}
    (h : (fields.map Prod.fst).Nodup) (hasked : asked ⊆ fields) :
    (ofFields fields).fields? (asked.map Prod.fst) = some (asked.map fun field => some field.2) := by
  have hreadable : (fields.map fun field => (field.1.toList.map Piece.ofChar, field.2)).mapM readable? =
      some fields := by
    rw [List.mapM_map]
    refine (mapM_eq_some (g := id) fun field _ => ?_).trans (by rw [List.map_id])
    show (textOf? (field.1.toList.map Piece.ofChar)).map (fun name => (String.ofList name, field.2)) = _
    rw [textOf?_ofChar, Option.map_some, String.ofList_toList]
    rfl
  show ((fields.map fun field => (field.1.toList.map Piece.ofChar, field.2)).mapM readable?).bind
    (fun members => (asked.map Prod.fst).mapM (member? members)) = _
  rw [hreadable, Option.bind_some, List.mapM_map]
  refine mapM_eq_some fun field hmem => ?_
  show member? fields field.1 = _
  unfold member?
  rw [filter_name_of_nodup h (hasked hmem)]

/-- **The fields of a record** are found by `fields?` under their names, if no two of them have one name. -/
theorem fields?_ofFields {fields : List (String × Json)} {names : List String}
    (hnames : fields.map Prod.fst = names) (h : names.Nodup) :
    (ofFields fields).fields? names = some (fields.map fun field => some field.2) :=
  hnames ▸ fields?_ofFields_of_subset (hnames ▸ h) (List.Subset.refl _)

theorem printable_ofFields {fields : List (String × Json)} (h : ∀ field ∈ fields, Printable field.2) :
    Printable (ofFields fields) := by
  refine .object ?_ ?_
  · intro member hmem
    obtain ⟨field, -, rfl⟩ := List.mem_map.mp hmem
    exact printable_pieces field.1
  · intro member hmem
    obtain ⟨field, hfield, rfl⟩ := List.mem_map.mp hmem
    exact h field hfield

theorem printable_map {write : α → Json} (h : ∀ value, Printable (write value)) (values : List α) :
    Printable (.array (values.map write)) := by
  refine .array fun element hmem => ?_
  obtain ⟨value, -, rfl⟩ := List.mem_map.mp hmem
  exact h value

end

end Calculator.Json
