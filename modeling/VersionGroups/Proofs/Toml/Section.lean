import VersionGroups.Proofs.Toml.Key

/-!
# The sections of a document can be told apart

What is written one after the other can be taken apart again: the keys of a header end at points and
at the bracket, a value ends with its line, a section ends where an empty line or nothing follows.
Each of these is told from what may follow it, and so is a list of them. So a text is the text of
one list of sections, if no value breaks its line.
-/
namespace VersionGroups.Toml

/-- What is written is told from what follows it, unless that goes on with a character of a kind. -/
def Separable {α : Type} (write : α → List Char) (valid : α → Prop) (p : Char → Bool) : Prop :=
  ∀ ⦃a b⦄, valid a → valid b → ∀ ⦃r s⦄, Stops p r → Stops p s →
    write a ++ r = write b ++ s → a = b ∧ r = s

section
variable {α : Type} {write : α → List Char} {valid : α → Prop} {p q : Char → Bool}

theorem Stops.mono (hpq : ∀ c, p c = true → q c = true) {r : List Char} (hr : Stops q r) :
    Stops p r := by
  intro c hc
  refine eq_false_of_ne_true fun hp => ?_
  have hq := hr c hc
  rw [hpq c hp] at hq
  cases hq

theorem stops_flatMap (hpq : ∀ c, p c = true → q c = true)
    (hhead : ∀ a, ∃ c rest, write a = c :: rest ∧ p c = false) (as : List α) {r : List Char}
    (hr : Stops q r) : Stops p (as.flatMap write ++ r) := by
  cases as with
  | nil => exact hr.mono hpq
  | cons a as =>
      obtain ⟨c, rest, heq, hc⟩ := hhead a
      rw [List.flatMap_cons, heq]
      exact stops_cons.mpr hc

/-- Things written one after the other are told apart if each begins with a character that may
follow the one before it and does not look like the end. -/
theorem Separable.flatMap (h : Separable write valid p) (hpq : ∀ c, p c = true → q c = true)
    (hhead : ∀ a, ∃ c rest, write a = c :: rest ∧ p c = false ∧ q c = true) :
    Separable (List.flatMap write) (fun as => ∀ a ∈ as, valid a) q := by
  have hstops : ∀ (as : List α) {r}, Stops q r → Stops p (as.flatMap write ++ r) :=
    stops_flatMap hpq fun a => (hhead a).imp fun c => .imp fun rest => .imp_right And.left
  have happart : ∀ a as r, ¬ Stops q ((a :: as).flatMap write ++ r) := by
    intro a as r hr
    obtain ⟨c, rest, heq, -, hc⟩ := hhead a
    rw [List.flatMap_cons, heq] at hr
    rw [stops_cons.mp hr] at hc
    cases hc
  intro as
  induction as with
  | nil =>
      rintro (_ | ⟨b, bs⟩) - - r s hr - heq
      · exact ⟨rfl, heq⟩
      · rw [List.flatMap_nil, List.nil_append] at heq
        exact absurd (heq ▸ hr) (happart b bs s)
  | cons a as ih =>
      rintro (_ | ⟨b, bs⟩) ha hb r s hr hs heq
      · rw [List.flatMap_nil, List.nil_append] at heq
        exact absurd (heq ▸ hs) (happart a as r)
      · obtain ⟨ha, has⟩ := List.forall_mem_cons.mp ha
        obtain ⟨hb, hbs⟩ := List.forall_mem_cons.mp hb
        rw [List.flatMap_cons, List.append_assoc, List.flatMap_cons, List.append_assoc] at heq
        obtain ⟨rfl, hrest⟩ := h ha hb (hstops as hr) (hstops bs hs) heq
        obtain ⟨rfl, rfl⟩ := ih has hbs hr hs hrest
        exact ⟨rfl, rfl⟩

end

theorem separable_of_test (p : Char → Bool) :
    Separable id (fun cs => ∀ c ∈ cs, p c = true) p := by
  intro cs ds hcs hds r s hr hs heq
  obtain rfl : cs = ds := by
    rw [← takeWhile_append_stops hcs hr, ← takeWhile_append_stops hds hs]
    exact congrArg _ heq
  exact ⟨rfl, List.append_cancel_left heq⟩

theorem toList_intercalate_cons (separator first : String) (rest : List String) :
    (separator.intercalate (first :: rest)).toList =
      first.toList ++ rest.flatMap fun text => separator.toList ++ text.toList := by
  induction rest generalizing first with
  | nil => simp
  | cons second rest ih => simp_all

theorem isDigit_of_mem_toString {n : Nat} {c : Char} (h : c ∈ (toString n).toList) :
    c.isDigit = true := by
  rw [Nat.toString_eq_ofList_toDigits, String.toList_ofList] at h
  exact Nat.isDigit_of_mem_toDigits (by decide) (by decide) h

theorem toString_injective {n m : Nat} (h : (toString n).toList = (toString m).toList) : n = m := by
  simp only [Nat.toString_eq_ofList_toDigits, String.toList_ofList] at h
  have hread := congrArg (Nat.ofDigitChars 10 · 0) h
  simpa [Nat.ofDigitChars_toDigits] using hread

theorem separable_number :
    Separable (fun n : Nat => (toString n).toList) (fun _ => True) Char.isDigit := by
  intro n m _ _ r s hr hs heq
  obtain ⟨htext, rfl⟩ := separable_of_test Char.isDigit (fun _ => isDigit_of_mem_toString)
    (fun _ => isDigit_of_mem_toString) hr hs heq
  exact ⟨toString_injective htext, rfl⟩

/-- Numbers with a comma before each are told from the closing bracket. -/
theorem separable_numbers :
    Separable (List.flatMap fun n : Nat => ", ".toList ++ (toString n).toList)
      (fun ns => ∀ n ∈ ns, True) (· != ']') := by
  have hitem : Separable (fun n : Nat => ", ".toList ++ (toString n).toList) (fun _ => True)
      Char.isDigit := by
    intro n m hn hm r s hr hs heq
    rw [List.append_assoc, List.append_assoc] at heq
    exact separable_number hn hm hr hs (List.append_cancel_left heq)
  refine hitem.flatMap ?_ fun n => ⟨',', ' ' :: (toString n).toList, rfl, rfl, rfl⟩
  intro c hc
  refine bne_iff_ne.mpr ?_
  rintro rfl
  cases hc

theorem toList_numbersText (ns : List Nat) : (numbersText ns).toList =
    '[' :: (String.intercalate ", " (ns.map toString)).toList ++ [']'] := by
  rw [numbersText, String.toList_append, String.toList_append]
  rfl

theorem toList_intercalate_numbers (n : Nat) (ns : List Nat) :
    ", ".toList ++ (String.intercalate ", " ((n :: ns).map toString)).toList =
      (n :: ns).flatMap fun m => ", ".toList ++ (toString m).toList := by
  rw [List.map_cons, toList_intercalate_cons, List.flatMap_map, List.flatMap_cons,
    List.append_assoc]

theorem intercalate_numbers_ne_nil (n : Nat) (ns : List Nat) :
    (String.intercalate ", " ((n :: ns).map toString)).toList ≠ [] := by
  rw [List.map_cons, toList_intercalate_cons, Nat.toString_eq_ofList_toDigits,
    String.toList_ofList]
  exact List.append_ne_nil_of_left_ne_nil Nat.toDigits_ne_nil _

theorem numbersText_injective {ns ms : List Nat} (h : numbersText ns = numbersText ms) :
    ns = ms := by
  have hbody : (String.intercalate ", " (ns.map toString)).toList =
      (String.intercalate ", " (ms.map toString)).toList := by
    have hchars := congrArg String.toList h
    rw [toList_numbersText, toList_numbersText] at hchars
    exact (List.cons.inj (List.append_cancel_right hchars)).2
  match ns, ms with
  | [], [] => rfl
  | [], m :: ms => exact absurd hbody.symm (intercalate_numbers_ne_nil m ms)
  | n :: ns, [] => exact absurd hbody (intercalate_numbers_ne_nil n ns)
  | n :: ns, m :: ms =>
      have hcommas : ((n :: ns).flatMap fun m => ", ".toList ++ (toString m).toList) ++ [']'] =
          ((m :: ms).flatMap fun m => ", ".toList ++ (toString m).toList) ++ [']'] := by
        rw [← toList_intercalate_numbers, ← toList_intercalate_numbers, hbody]
      exact (separable_numbers (fun _ _ => trivial) (fun _ _ => trivial) (stops_cons.mpr rfl)
        (stops_cons.mpr rfl) hcommas).1

theorem toString_ne_numbersText (n : Nat) (ns : List Nat) : toString n ≠ numbersText ns := by
  intro h
  have hmem : '[' ∈ (toString n).toList := by
    rw [h, toList_numbersText]
    exact List.mem_append_left _ List.mem_cons_self
  have hdigit := isDigit_of_mem_toString hmem
  cases hdigit

theorem valueText?_injective {node node' : Node} {text : String}
    (h : node.valueText? = some text) (h' : node'.valueText? = some text) : node = node' := by
  match node, node' with
  | .table _, _ => cases h
  | _, .table _ => cases h'
  | .number n, .number m =>
      have htext : toString n = toString m := Option.some.inj (h.trans h'.symm)
      rw [toString_injective (congrArg String.toList htext)]
  | .numbers ns, .numbers ms => rw [numbersText_injective (Option.some.inj (h.trans h'.symm))]
  | .number n, .numbers ms =>
      exact absurd (Option.some.inj (h.trans h'.symm)) (toString_ne_numbersText n ms)
  | .numbers ns, .number m =>
      exact absurd (Option.some.inj (h'.trans h.symm)) (toString_ne_numbersText m ns)

/-- A value stands on one line. -/
theorem newline_not_mem_valueText {node : Node} {text : String} (h : node.valueText? = some text) :
    '\n' ∉ text.toList := by
  have hnumber : ∀ n : Nat, '\n' ∉ Nat.toDigits 10 n := by
    intro n hmem
    have hdigit := Nat.isDigit_of_mem_toDigits (by decide) (by decide) hmem
    cases hdigit
  match node with
  | .table _ => cases h
  | .number n =>
      obtain rfl := Option.some.inj h
      simpa using hnumber n
  | .numbers [] =>
      obtain rfl := Option.some.inj h
      decide
  | .numbers (n :: ns) =>
      obtain rfl := Option.some.inj h
      rw [toList_numbersText, List.map_cons, toList_intercalate_cons, List.flatMap_map]
      simp [hnumber]

theorem bracket_of_isBareChar {c : Char} (h : isBareChar c = true) : (c != ']') = true := by
  refine bne_iff_ne.mpr ?_
  rintro rfl
  cases h

/-- The keys of a path, each after a point, are told from the bracket of the header. -/
theorem separable_dotted : Separable (List.flatMap fun key : String => '.' :: (keyText key).toList)
    (fun path => ∀ key ∈ path, True) (· != ']') := by
  have hitem : Separable (fun key : String => '.' :: (keyText key).toList) (fun _ => True)
      isBareChar := by
    intro key key' _ _ r s hr hs heq
    exact keyText_append_inj hr hs (List.cons.inj heq).2
  exact hitem.flatMap (fun c => bracket_of_isBareChar)
    fun key => ⟨'.', (keyText key).toList, rfl, rfl, rfl⟩

theorem toList_pathText_cons (key : String) (path : List String) :
    (pathText (key :: path)).toList =
      (keyText key).toList ++ path.flatMap fun key => '.' :: (keyText key).toList := by
  rw [pathText, List.map_cons, toList_intercalate_cons, List.flatMap_map]
  rfl

/-- The header of a section; the section of the whole document has none. -/
def headerChars (path : List String) : List Char :=
  if path.isEmpty then [] else '[' :: (pathText path).toList ++ [']', '\n']

def lineChars (line : String × String) : List Char :=
  (keyText line.1).toList ++ " = ".toList ++ line.2.toList ++ ['\n']

theorem Section.toList_text (s : Section) :
    s.text.toList = headerChars s.path ++ s.lines.flatMap lineChars := by
  obtain ⟨path, lines⟩ := s
  have hlines : lineChars = fun line =>
      (keyText line.1 ++ " = " ++ line.2 ++ "\n").toList := by
    funext line
    simp [lineChars]
  rw [Section.text, String.toList_append, String.toList_join, List.flatMap_map, headerChars,
    hlines]
  congr 1
  split <;> simp

/-- A header is told from what follows it, if that does not look like one. -/
theorem separable_headerChars : Separable headerChars (fun _ => True) (· == '[') := by
  rintro (_ | ⟨key, path⟩) (_ | ⟨key', path'⟩) - - r s hr hs heq
  · exact ⟨rfl, heq⟩
  · obtain rfl : r = headerChars (key' :: path') ++ s := heq
    cases stops_cons.mp hr
  · obtain rfl : headerChars (key :: path) ++ r = s := heq
    cases stops_cons.mp hs
  · have hbracket : ∀ rest, Stops (· != ']') (']' :: rest) := fun rest => stops_cons.mpr rfl
    have hstops : ∀ (path : List String) {rest}, Stops (· != ']') rest → Stops isBareChar
        (path.flatMap (fun key => '.' :: (keyText key).toList) ++ rest) :=
      stops_flatMap (fun c => bracket_of_isBareChar)
        fun key => ⟨'.', (keyText key).toList, rfl, rfl⟩
    have hkeys : ∀ (key : String) path rest, headerChars (key :: path) ++ rest =
        '[' :: ((keyText key).toList ++ (path.flatMap (fun key => '.' :: (keyText key).toList) ++
          ']' :: '\n' :: rest)) := by
      intro key path rest
      rw [headerChars, toList_pathText_cons]
      simp
    rw [hkeys, hkeys] at heq
    obtain ⟨rfl, hpath⟩ := keyText_append_inj (hstops path (hbracket _)) (hstops path' (hbracket _))
      (List.cons.inj heq).2
    obtain ⟨rfl, hrest⟩ := separable_dotted (fun _ _ => trivial) (fun _ _ => trivial)
      (hbracket _) (hbracket _) hpath
    exact ⟨rfl, (List.cons.inj (List.cons.inj hrest).2).2⟩

theorem separable_lineChars :
    Separable lineChars (fun line => '\n' ∉ line.2.toList) (fun _ => false) := by
  rintro ⟨key, value⟩ ⟨key', value'⟩ hvalue hvalue' r s - - heq
  dsimp only at hvalue hvalue'
  have hline : ∀ key value rest, lineChars (key, value) ++ rest =
      (keyText key).toList ++ (' ' :: '=' :: ' ' :: (value.toList ++ '\n' :: rest)) := by
    intro key value rest
    simp [lineChars]
  have hplain : ∀ {value : String}, '\n' ∉ value.toList →
      ∀ c ∈ value.toList, (c != '\n') = true := by
    rintro value h c hc
    exact bne_iff_ne.mpr fun heq => h (heq ▸ hc)
  rw [hline, hline] at heq
  obtain ⟨rfl, hrest⟩ := keyText_append_inj (stops_cons.mpr rfl) (stops_cons.mpr rfl) heq
  simp only [List.cons.injEq, true_and] at hrest
  obtain ⟨htext, hend⟩ := separable_of_test (· != '\n') (hplain hvalue) (hplain hvalue')
    (stops_cons.mpr rfl) (stops_cons.mpr rfl) hrest
  obtain rfl := String.toList_injective htext
  exact ⟨rfl, (List.cons.inj hend).2⟩

/-- Every value of a section stands on one line. -/
def Section.Lined (s : Section) : Prop := ∀ line ∈ s.lines, '\n' ∉ line.2.toList

/-- A line begins neither like a header nor with a line break. -/
theorem lineChars_head (line : String × String) :
    ∃ c rest, lineChars line = c :: rest ∧ (c == '[') = false ∧ (c != '\n') = true := by
  obtain ⟨c, rest, heq, hc⟩ := keyText_head line.1
  have hkind : ∀ d, isBareChar d = false → d ≠ '"' → d ≠ '\'' → c ≠ d := by
    rintro d hbare hquote hliteral rfl
    rcases hc with hc | hc | hc
    · rw [hbare] at hc
      cases hc
    · exact hquote hc
    · exact hliteral hc
  refine ⟨c, _, by rw [lineChars, heq]; rfl, beq_eq_false_iff_ne.mpr ?_, bne_iff_ne.mpr ?_⟩
  · exact hkind '[' rfl (by decide) (by decide)
  · exact hkind '\n' rfl (by decide) (by decide)

/-- A section is told from an empty line and from the end of the text. -/
theorem separable_text :
    Separable (fun s : Section => s.text.toList) Section.Lined (· != '\n') := by
  intro a b ha hb r s hr hs heq
  have hlines : Separable (List.flatMap lineChars) (fun lines => ∀ l ∈ lines, '\n' ∉ l.2.toList)
      (· != '\n') := by
    refine separable_lineChars.flatMap (fun c hc => by cases hc) fun line => ?_
    obtain ⟨c, rest, hline, -, hc⟩ := lineChars_head line
    exact ⟨c, rest, hline, rfl, hc⟩
  have hheader : ∀ (lines : List (String × String)) {rest}, Stops (· != '\n') rest →
      Stops (· == '[') (lines.flatMap lineChars ++ rest) := by
    refine stops_flatMap ?_ fun line => ?_
    · intro c hc
      rw [beq_iff_eq.mp hc]
      rfl
    · obtain ⟨c, rest, hline, hc, -⟩ := lineChars_head line
      exact ⟨c, rest, hline, hc⟩
  change a.text.toList ++ r = b.text.toList ++ s at heq
  rw [Section.toList_text, Section.toList_text, List.append_assoc, List.append_assoc] at heq
  obtain ⟨hpath, hrest⟩ :=
    separable_headerChars trivial trivial (hheader a.lines hr) (hheader b.lines hs) heq
  obtain ⟨hlines, hrest⟩ := hlines ha hb hr hs hrest
  exact ⟨by cases a; cases b; exact Section.mk.injEq .. ▸ ⟨hpath, hlines⟩, hrest⟩

/-- Sections with empty lines between them are told apart. -/
theorem intercalate_text_injective {ss ts : List Section} (hss : ∀ s ∈ ss, s.Lined)
    (hts : ∀ t ∈ ts, t.Lined) (hne : ss ≠ []) (hne' : ts ≠ [])
    (h : String.intercalate "\n" (ss.map Section.text) =
      String.intercalate "\n" (ts.map Section.text)) : ss = ts := by
  have hitem : Separable (fun s : Section => '\n' :: s.text.toList) Section.Lined (· != '\n') := by
    intro s t hs ht r r' hr hr' heq
    exact separable_text hs ht hr hr' (List.cons.inj heq).2
  have hlist : Separable (List.flatMap fun s : Section => '\n' :: s.text.toList)
      (fun ss => ∀ s ∈ ss, s.Lined) (fun _ => true) :=
    hitem.flatMap (fun _ _ => rfl) fun s => ⟨'\n', s.text.toList, rfl, rfl, rfl⟩
  -- With an empty line before the first section as well, the sections are written alike.
  have hlines : ∀ {ss : List Section}, ss ≠ [] →
      '\n' :: (String.intercalate "\n" (ss.map Section.text)).toList =
        ss.flatMap fun s => '\n' :: s.text.toList := by
    intro ss hne
    obtain ⟨s, rest, rfl⟩ := List.exists_cons_of_ne_nil hne
    rw [List.map_cons, toList_intercalate_cons, List.flatMap_map]
    rfl
  have heq := congrArg (fun text => '\n' :: text.toList) h
  rw [hlines hne, hlines hne', ← List.append_nil (ss.flatMap _), ← List.append_nil (ts.flatMap _)]
    at heq
  exact (hlist hss hts (stops_nil _) (stops_nil _) heq).1

end VersionGroups.Toml
