import Mathlib.Data.List.Basic
import VersionGroups.Toml.Reader
import VersionGroups.Toml.Writer

/-!
# Written keys can be read

Reading a key that was written gives the key back, in each of the three ways of writing it. What
follows a bare key must not begin with a character of bare keys; a quoted key ends at its closing
quote, because every quote and every backslash inside it is escaped or of the other kind. So the
text of a key with what follows it tells both apart.
-/
namespace VersionGroups.Toml

theorem isPrintable_of_not_isControl {c : Char} (h : isControl c = false) :
    isPrintable c = true := by
  simp only [isControl, Bool.or_eq_false_iff, Bool.and_eq_false_iff, decide_eq_false_iff_not,
    bne_eq_false_iff_eq, beq_eq_false_iff_ne] at h
  simp only [isPrintable, Bool.or_eq_true, beq_iff_eq, Bool.and_eq_true, decide_eq_true_eq,
    bne_iff_ne]
  obtain ⟨h, hdelete⟩ := h
  rcases h with h | h
  · exact .inr ⟨Nat.le_of_not_lt h, hdelete⟩
  · exact .inl h

theorem hexDigits?_hexQuad : ∀ n < 128, (n < 32 ∨ n = 127) →
    (hexQuad n).length = 4 ∧ hexDigits? 0 (hexQuad n) = some n := by
  decide

theorem escape_hexQuad {c : Char} (h : isControl c = true) (rest : List Char) :
    escape ('u' :: (hexQuad c.toNat ++ rest)) = .ok (c, rest) := by
  have hsmall : c.toNat < 32 ∨ c.toNat = 127 := by
    simp only [isControl, Bool.or_eq_true, Bool.and_eq_true, decide_eq_true_eq, beq_iff_eq] at h
    omega
  obtain ⟨hlength, hvalue⟩ := hexDigits?_hexQuad c.toNat (by omega) hsmall
  generalize hexQuad c.toNat = digits at hlength hvalue
  obtain ⟨x, y, z, w, rfl⟩ := List.length_eq_four.mp hlength
  have hvalid : c.toNat.isValidChar := c.valid
  simp only [List.cons_append, List.nil_append, escape, hvalue, Option.bind_some, charOf?,
    if_pos hvalid, Char.ofNat_toNat]

/-- A character between double quotes stands for itself, or is read as an escape. -/
theorem escapeChar_cases (c : Char) :
    (escapeChar c = [c] ∧ c ≠ '"' ∧ c ≠ '\\' ∧ isPrintable c = true) ∨
      ∃ e, escapeChar c = '\\' :: e ∧ ∀ rest, escape (e ++ rest) = .ok (c, rest) := by
  by_cases hquote : c = '"'
  · subst hquote
    exact .inr ⟨['"'], rfl, fun _ => rfl⟩
  by_cases hbackslash : c = '\\'
  · subst hbackslash
    exact .inr ⟨['\\'], rfl, fun _ => rfl⟩
  by_cases htab : c = '\t'
  · subst htab
    exact .inr ⟨['t'], rfl, fun _ => rfl⟩
  by_cases hnewline : c = '\n'
  · subst hnewline
    exact .inr ⟨['n'], rfl, fun _ => rfl⟩
  by_cases hreturn : c = '\r'
  · subst hreturn
    exact .inr ⟨['r'], rfl, fun _ => rfl⟩
  by_cases hbackspace : c.toNat = 8
  · obtain rfl : c = Char.ofNat 8 := by rw [← hbackspace, Char.ofNat_toNat]
    exact .inr ⟨['b'], rfl, fun _ => rfl⟩
  by_cases hfeed : c.toNat = 12
  · obtain rfl : c = Char.ofNat 12 := by rw [← hfeed, Char.ofNat_toNat]
    exact .inr ⟨['f'], rfl, fun _ => rfl⟩
  simp only [escapeChar, hquote, hbackslash, htab, hnewline, hreturn, hbackspace, hfeed, if_false]
  cases hcontrol : isControl c with
  | true => exact .inr ⟨'u' :: hexQuad c.toNat, rfl, escape_hexQuad hcontrol⟩
  | false => exact .inl ⟨rfl, hquote, hbackslash, isPrintable_of_not_isControl hcontrol⟩

/-- Reading goes through the characters between double quotes one by one. -/
theorem basicRest_flatMap (cs : List Char) {fuel : Nat} (hfuel : cs.length < fuel)
    (acc rest : List Char) :
    basicRest fuel acc (cs.flatMap escapeChar ++ '"' :: rest) =
      .ok (String.ofList (acc.reverse ++ cs), rest) := by
  induction cs generalizing fuel acc with
  | nil =>
      obtain ⟨fuel, rfl⟩ : ∃ n, fuel = n + 1 := Nat.exists_eq_add_one.mpr hfuel
      simp [basicRest]
  | cons c cs ih =>
      obtain ⟨fuel, rfl⟩ : ∃ n, fuel = n + 1 := Nat.exists_eq_add_one.mpr (by omega)
      have hrest := ih (by simpa using hfuel : cs.length < fuel) (c :: acc)
      rw [List.reverse_cons, List.append_assoc] at hrest
      rw [List.flatMap_cons, List.append_assoc]
      rcases escapeChar_cases c with ⟨heq, hquote, hbackslash, hprint⟩ | ⟨e, heq, hescape⟩
      · rw [heq]
        simp only [List.singleton_append, basicRest, hprint, if_true]
        exact hrest
      · rw [heq]
        simp only [List.cons_append, basicRest, hescape]
        exact hrest

/-- Reading goes through the characters between single quotes one by one. -/
theorem literalRest_append {cs : List Char}
    (h : ∀ c ∈ cs, isPrintable c = true ∧ c ≠ '\'') (acc rest : List Char) :
    literalRest acc (cs ++ '\'' :: rest) = .ok (String.ofList (acc.reverse ++ cs), rest) := by
  induction cs generalizing acc with
  | nil => simp [literalRest]
  | cons c cs ih =>
      obtain ⟨⟨hprint, hquote⟩, hcs⟩ := List.forall_mem_cons.mp h
      have hrest := ih hcs (c :: acc)
      rw [List.reverse_cons, List.append_assoc] at hrest
      rw [List.cons_append, literalRest, if_pos hprint]
      · exact hrest
      · exact hquote

/-- A text that is empty or begins with a character that fails a test. -/
def Stops (p : Char → Bool) (rest : List Char) : Prop := ∀ c ∈ rest.head?, p c = false

@[simp] theorem stops_nil (p : Char → Bool) : Stops p [] := fun _ h => by cases h

@[simp] theorem stops_cons {p : Char → Bool} {c : Char} {rest : List Char} :
    Stops p (c :: rest) ↔ p c = false := by
  simp [Stops]

theorem takeWhile_append_stops {p : Char → Bool} {cs rest : List Char} (h : ∀ c ∈ cs, p c = true)
    (hrest : Stops p rest) : (cs ++ rest).takeWhile p = cs := by
  rw [List.takeWhile_append_of_pos h]
  cases rest with
  | nil => simp
  | cons c rest => simp [stops_cons.mp hrest]

/-- A bare key is read up to the first character that is not bare. -/
theorem key_bare {cs rest : List Char} (hne : cs ≠ []) (hbare : ∀ c ∈ cs, isBareChar c = true)
    (hrest : Stops isBareChar rest) : key (cs ++ rest) = .ok (String.ofList cs, rest) := by
  have htake : (cs ++ rest).takeWhile isBare = cs := takeWhile_append_stops hbare hrest
  obtain ⟨c, tail, rfl⟩ := List.exists_cons_of_ne_nil hne
  have hc := hbare c List.mem_cons_self
  rw [List.cons_append] at htake ⊢
  rw [key]
  · simp [htake]
  · intro tail' heq
    obtain ⟨rfl, -⟩ := List.cons.inj heq
    cases hc
  · intro tail' heq
    obtain ⟨rfl, -⟩ := List.cons.inj heq
    cases hc

theorem length_le_flatMap_escapeChar (cs : List Char) :
    cs.length ≤ (cs.flatMap escapeChar).length := by
  induction cs with
  | nil => exact Nat.le_refl _
  | cons c cs ih =>
      have hc : 0 < (escapeChar c).length := by
        rcases escapeChar_cases c with ⟨heq, -⟩ | ⟨e, heq, -⟩ <;> simp [heq]
      rw [List.flatMap_cons, List.length_append, List.length_cons]
      omega

/-- Reading a written key gives it back, with what follows it. -/
theorem key_keyText (k : String) {rest : List Char} (hrest : Stops isBareChar rest) :
    key ((keyText k).toList ++ rest) = .ok (k, rest) := by
  rw [keyText, String.toList_ofList, keyChars]
  split
  · rename_i hbare
    simp only [Bool.and_eq_true, Bool.not_eq_true', List.isEmpty_eq_false_iff,
      List.all_eq_true] at hbare
    simpa using key_bare hbare.1 hbare.2 hrest
  split
  · rename_i hliteral
    have hplain : ∀ c ∈ k.toList, isPrintable c = true ∧ c ≠ '\'' := by
      intro c hc
      simp only [Bool.and_eq_true, Bool.not_eq_true', List.any_eq_false, Bool.or_eq_true,
        not_or, beq_iff_eq] at hliteral
      obtain ⟨hcontrol, hquote⟩ := hliteral.2 c hc
      exact ⟨isPrintable_of_not_isControl (eq_false_of_ne_true hcontrol), hquote⟩
    have hread := literalRest_append hplain [] rest
    simpa [key, lineText] using hread
  · have hlength : k.toList.length < (k.toList.flatMap escapeChar ++ '"' :: rest).length + 1 := by
      have hle := length_le_flatMap_escapeChar k.toList
      rw [List.length_append]
      omega
    have hread := basicRest_flatMap k.toList hlength [] rest
    simpa [key, lineText] using hread

theorem keyText_append_inj {k k' : String} {rest rest' : List Char} (hrest : Stops isBareChar rest)
    (hrest' : Stops isBareChar rest')
    (h : (keyText k).toList ++ rest = (keyText k').toList ++ rest') : k = k' ∧ rest = rest' := by
  have hread := key_keyText k hrest
  rw [h, key_keyText k' hrest'] at hread
  obtain ⟨rfl, rfl⟩ := Prod.mk.inj (Except.ok.inj hread)
  exact ⟨rfl, rfl⟩

/-- A written key begins with a character of bare keys or with a quote. -/
theorem keyText_head (k : String) :
    ∃ c rest, (keyText k).toList = c :: rest ∧ (isBareChar c = true ∨ c = '"' ∨ c = '\'') := by
  rw [keyText, String.toList_ofList, keyChars]
  split
  · rename_i hbare
    simp only [Bool.and_eq_true, Bool.not_eq_true', List.isEmpty_eq_false_iff,
      List.all_eq_true] at hbare
    obtain ⟨c, rest, heq⟩ := List.exists_cons_of_ne_nil hbare.1
    exact ⟨c, rest, heq, .inl (hbare.2 c (heq ▸ List.mem_cons_self))⟩
  split
  · exact ⟨_, _, rfl, .inr (.inr rfl)⟩
  · exact ⟨_, _, rfl, .inr (.inl rfl)⟩

end VersionGroups.Toml
