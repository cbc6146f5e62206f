/-
**Which relay tokens a redacted log can show.**

`redact_hides_iff`: the tokens that no template tells from an inert one are the inert ones. For
every other token a template is given whose redacted log shows that the token was in it and not `0`:

* `differs_of_assignment` — an assignment in the token with no quote behind it takes the rest of the
  line with it;
* `differs_of_quote` — a quote ends the value that the rest of the token belongs to;
* `differs_of_front`, `differs_of_back` — the token and the text beside it make an assignment;
* `differs_inside`, `differs_e` — hiding the token takes an assignment apart;
* `differs_of_mask` — the token stands in the mask;
* `differs_of_escape` — `str` writes the token as another text, which is not registered.
-/

import IrohTunnel.Action.RedactEnds

namespace IrohTunnel.Action

open IrohTunnel.Library.Lists
open IrohTunnel.Library.Text

variable {token : List Char}

/-! ### Logs that tell a token from another -/

/-- An inert token to compare with. -/
def probe : List Char := ['0']

theorem probe_noQuote : ∀ char ∈ probe, isQuote char = false := List.forall_mem_singleton.mpr rfl

/-- The redacted logs of a template differ for the token and the probe. -/
def Differs (token : List Char) (template : List Piece) : Prop :=
  OnlyAtHoles token template ∧ OnlyAtHoles probe template ∧
    redact (fill token template) [token] ≠ redact (fill probe template) [probe]

instance (token : List Char) (template : List Piece) : Decidable (Differs token template) :=
  inferInstanceAs (Decidable (_ ∧ _ ∧ _))

theorem onlyAtHoles_probe {front back : List Char} (before : '0' ∉ front) (after : '0' ∉ back) :
    OnlyAtHoles probe (around front back) := by
  have none : ∀ {text : List Char}, '0' ∉ text → text.any (· == '0') = false := fun missing =>
    List.any_eq_false.mpr fun char member same => missing (beq_iff_eq.mp same ▸ member)
  refine onlyAtHoles_around (by decide) fun front' back' same => ?_
  exact Nat.le_antisymm (le_of_marked same (by decide) (none before))
    (ge_of_marked same (by decide) (none after))

theorem redact_ne {first second : Char} (distinct : first ≠ second) {text₁ text₂ : List Char}
    (one : Ends first text₁) (two : Ends second text₂) : text₁ ≠ text₂ := by
  rintro rfl
  exact distinct (one.eq two)

/-- The last quote of a text. -/
theorem exists_last_quote (text : List Char) :
    (∀ char ∈ text, isQuote char = false) ∨ ∃ front quote back, text = front ++ quote :: back ∧
      isQuote quote = true ∧ ∀ char ∈ back, isQuote char = false := by
  induction text with
  | nil => exact .inl fun _ member => nomatch member
  | cons char rest ih =>
    rcases ih with none | ⟨front, quote, back, rfl, is, none⟩
    · cases here : isQuote char with
      | true => exact .inr ⟨[], char, rest, rfl, here, none⟩
      | false => exact .inl (List.forall_mem_cons.mpr ⟨here, none⟩)
    · exact .inr ⟨char :: front, quote, back, rfl, is, none⟩

theorem plain_of {text : List Char} (noSpace : ∀ char ∈ text, isSpace char = false)
    (noQuote : ∀ char ∈ text, isQuote char = false) : Plain text := fun char member => by
  rw [isBare, noSpace char member, noQuote char member]
  rfl

theorem sign_ne {sign other : Char} (isSign : isSign sign = true)
    (special : Action.isSign other = false) : sign ≠ other := by
  rintro rfl
  rw [isSign] at special
  cases special

/-- What starts an assignment. -/
def assignments : List (List Char) :=
  [secretKey ++ ['='], secretKey ++ [':'], relayToken ++ ['='], relayToken ++ [':']]

theorem mem_assignments {key : List Char} {sign : Char} (isKey : key ∈ [secretKey, relayToken])
    (isSign : isSign sign = true) : key ++ [sign] ∈ assignments := by
  rw [List.mem_cons, List.mem_singleton] at isKey
  rw [Action.isSign, Bool.or_eq_true, beq_iff_eq, beq_iff_eq] at isSign
  rcases isKey with rfl | rfl <;> rcases isSign with rfl | rfl <;> decide

section Assignments

variable {key : List Char} {sign : Char} (isKey : key ∈ [secretKey, relayToken])
  (isSign : isSign sign = true)

include isKey isSign

/-- An assignment with no blank in the text and no quote behind it takes the end of the text. -/
theorem ends_masked {text front value : List Char}
    (noSpace : ∀ char ∈ text, isSpace char = false) (is : text = front ++ (key ++ sign :: value))
    (noQuote : ∀ char ∈ value, isQuote char = false) (nonempty : value ≠ []) :
    Ends '"' (masked text) := by
  have later : ∀ char ∈ key ++ sign :: value, isQuote char = false :=
    List.forall_mem_append.mpr ⟨noQuote_of_key isKey,
      List.forall_mem_cons.mpr ⟨noQuote_of_sign isSign, noQuote⟩⟩
  rcases exists_last_quote front with none | ⟨before, quote, between, rfl, isQuote, none⟩
  · have plain : Plain text :=
      plain_of noSpace (is ▸ List.forall_mem_append.mpr ⟨none, later⟩)
    exact Cut.ends_of_assignment isKey isSign plain (.inl rfl) is nonempty
  · have whole : text = before ++ quote :: (between ++ (key ++ sign :: value)) := by simp [is]
    have plain : Plain (between ++ (key ++ sign :: value)) :=
      plain_of (fun char member => noSpace char (whole ▸ by
        exact List.mem_append_right _ (List.mem_cons_of_mem _ member)))
        (List.forall_mem_append.mpr ⟨none, later⟩)
    exact Cut.ends_of_assignment isKey isSign plain (.inr ⟨before, quote, isQuote, whole⟩) rfl
      nonempty

/-- So the redacted log ends, where no quote ends the token. -/
theorem ends_redact {text front value : List Char} (secret : token ≠ []) (last : ¬ Ends '"' token)
    (noSpace : ∀ char ∈ text, isSpace char = false) (is : text = front ++ (key ++ sign :: value))
    (noQuote : ∀ char ∈ value, isQuote char = false) (nonempty : value ≠ []) :
    Ends '"' (redact text [token]) :=
  ends_hideSecret secret last (ends_masked isKey isSign noSpace is noQuote nonempty)

end Assignments

theorem not_ends_of_noQuote {text : List Char} (noQuote : ∀ char ∈ text, isQuote char = false) :
    ¬ Ends '"' text := by
  rintro ⟨front, rfl⟩
  exact absurd (noQuote '"' (by simp)) (by decide)

/-- What the probe shows beside a part of an assignment. -/
theorem probe_shows : ∀ word ∈ assignments, ∀ size < 12, 0 < size → size < word.length →
    (redact (fill probe (around [] (word.drop size ++ ['x']))) [probe]).getLast? = some 'x' ∧
      (redact (fill probe (around (word.take size) ['x'])) [probe]).getLast? = some 'x' := by
  decide +kernel

/-- The characters of an assignment: its first letter stands nowhere else in it, its sign at its end
only, and neither a blank nor `0` anywhere. -/
structure IsAssignment (word : List Char) : Prop where
  noProbe : word.contains '0' = false
  noSpace : word.any isSpace = false
  first : (word.tail ++ ['x']).any (word.head? == some ·) = false
  unsigned : word.dropLast.any isSign = false
  signed : word.getLast?.any isSign = true
  short : word.length ≤ 12

theorem isAssignment_of_mem {word : List Char} (member : word ∈ assignments) :
    IsAssignment word := by
  have all : ∀ word ∈ assignments, word.contains '0' = false ∧ word.any isSpace = false ∧
      (word.tail ++ ['x']).any (word.head? == some ·) = false ∧ word.dropLast.any isSign = false ∧
      word.getLast?.any isSign = true ∧ word.length ≤ 12 := by decide
  obtain ⟨noProbe, noSpace, first, unsigned, signed, short⟩ := all word member
  exact ⟨noProbe, noSpace, first, unsigned, signed, short⟩

theorem IsAssignment.probe_notMem {word part : List Char} (is : IsAssignment word)
    (subset : part ⊆ word) : '0' ∉ part ++ ['x'] := by
  intro member
  rcases List.mem_append.mp member with inPart | last
  · have inWord := List.contains_iff_mem.mpr (subset inPart)
    rw [is.noProbe] at inWord
    cases inWord
  · exact absurd (List.mem_singleton.mp last) (by decide)

theorem IsAssignment.space_notMem {word part : List Char} (is : IsAssignment word)
    (subset : part ⊆ word) : ∀ char ∈ part ++ ['x'], isSpace char = false :=
  List.forall_mem_append.mpr ⟨fun char member => eq_false_of_any is.noSpace char (subset member),
    List.forall_mem_singleton.mpr rfl⟩

theorem Ends.of_getLast? {char : Char} {text : List Char} (last : text.getLast? = some char) :
    Ends char text :=
  List.getLast?_eq_some_iff.mp last

section Differences

variable (nonempty : token ≠ []) (noSpace : ∀ char ∈ token, isSpace char = false)
  {key : List Char} {sign : Char} (isKey : key ∈ [secretKey, relayToken])
  (isSign : isSign sign = true)

include nonempty noSpace isKey isSign

/-- An assignment in the token with no quote behind it. -/
theorem differs_of_assignment {front back : List Char}
    (is : token = front ++ (key ++ sign :: back)) (noQuote : ∀ char ∈ back, isQuote char = false) :
    Differs token (around [] ['x']) := by
  have signMember : sign ∈ token := is ▸ by simp
  have marked : token.any (· != 'x') = true :=
    List.any_eq_true.mpr ⟨sign, signMember, bne_iff_ne.mpr (sign_ne isSign rfl)⟩
  have only : OnlyAtHoles token (around [] ['x']) :=
    onlyAtHoles_around nonempty fun _ _ same =>
      Nat.le_antisymm (Nat.zero_le _) (ge_of_marked same marked rfl)
  refine ⟨only, onlyAtHoles_probe (by decide) (by decide), ?_⟩
  have shown : Ends 'x' (redact (fill probe (around [] ['x'])) [probe]) := ⟨stars, by decide⟩
  have last : ¬ Ends '"' token := fun ends =>
    not_ends_of_noQuote (List.forall_mem_cons.mpr ⟨noQuote_of_sign isSign, noQuote⟩)
      (ends.of_suffix ⟨front ++ key, by simp [is]⟩ (List.cons_ne_nil sign back))
  have text : fill token (around [] ['x']) = front ++ (key ++ sign :: (back ++ ['x'])) := by
    rw [fill_around, is]
    simp
  have spaces : ∀ char ∈ fill token (around [] ['x']), isSpace char = false := by
    rw [fill_around, List.nil_append]
    exact List.forall_mem_append.mpr ⟨noSpace, List.forall_mem_singleton.mpr rfl⟩
  have hidden := ends_redact isKey isSign nonempty last spaces text
    (List.forall_mem_append.mpr ⟨noQuote, List.forall_mem_singleton.mpr rfl⟩) (by simp)
  exact redact_ne (by decide) hidden shown

variable (noQuote : ∀ char ∈ token, isQuote char = false)

include noQuote

/-- The start of an assignment at the end of the token. -/
theorem differs_of_back {front start rest : List Char} (is : token = front ++ start)
    (word : key ++ [sign] = start ++ rest) (some : start ≠ []) (more : rest ≠ []) :
    Differs token (around [] (rest ++ ['x'])) := by
  have member := mem_assignments isKey isSign
  have isAssignment := isAssignment_of_mem member
  have subset : rest ⊆ key ++ [sign] := word ▸ List.subset_append_right start rest
  have only : OnlyAtHoles token (around [] (rest ++ ['x'])) := by
    obtain ⟨letter, others, rfl⟩ := List.exists_cons_of_ne_nil some
    have first := isAssignment.first
    rw [word, List.cons_append, List.tail_cons, List.head?_cons, List.append_assoc,
      List.any_append, Bool.or_eq_false_iff] at first
    refine onlyAtHoles_around nonempty fun _ _ same => Nat.le_antisymm (Nat.zero_le _) ?_
    refine ge_of_marked same (List.any_eq_true.mpr ⟨letter, is ▸ by simp, beq_self_eq_true _⟩)
      first.2
  refine ⟨only, onlyAtHoles_probe (by decide) (isAssignment.probe_notMem subset), ?_⟩
  have text : fill token (around [] (rest ++ ['x'])) = front ++ (key ++ sign :: ['x']) := by
    have whole : key ++ sign :: ['x'] = start ++ rest ++ ['x'] := by
      rw [← word, List.append_assoc]
      rfl
    rw [fill_around, is, whole]
    simp
  have spaces : ∀ char ∈ fill token (around [] (rest ++ ['x'])), isSpace char = false := by
    rw [fill_around, List.nil_append]
    exact List.forall_mem_append.mpr ⟨noSpace, isAssignment.space_notMem subset⟩
  have hidden := ends_redact isKey isSign nonempty (not_ends_of_noQuote noQuote) spaces text
    (List.forall_mem_singleton.mpr rfl) (by simp)
  have length : (key ++ [sign]).length = start.length + rest.length := by
    rw [word, List.length_append]
  have positive := List.length_pos_iff.mpr more
  have short := isAssignment.short
  have shown := (probe_shows _ member start.length (by omega) (List.length_pos_iff.mpr some)
    (by omega)).1
  rw [word, List.drop_left] at shown
  exact redact_ne (by decide) hidden (.of_getLast? shown)

/-- The end of an assignment at the start of the token. -/
theorem differs_of_front {start rest back : List Char} (is : token = rest ++ back)
    (word : key ++ [sign] = start ++ rest) (some : start ≠ []) (more : rest ≠ []) :
    Differs token (around start ['x']) := by
  have member := mem_assignments isKey isSign
  have isAssignment := isAssignment_of_mem member
  have subset : start ⊆ key ++ [sign] := word ▸ List.subset_append_left start rest
  obtain ⟨others, last, rfl⟩ := List.eq_nil_or_concat rest |>.resolve_left more
  rw [List.concat_eq_append] at is word more
  obtain ⟨keyIs, signIs⟩ := List.append_inj' (word.trans (List.append_assoc _ _ _).symm) rfl
  obtain rfl : sign = last := (List.cons.inj signIs).1
  have signMember : sign ∈ token := is ▸ by simp
  have unsigned : start.any Action.isSign = false := by
    have none := isAssignment.unsigned
    rw [List.dropLast_concat, keyIs, List.any_append, Bool.or_eq_false_iff] at none
    exact none.1
  have signed : token.any Action.isSign = true := List.any_eq_true.mpr ⟨sign, signMember, isSign⟩
  have notX : token.any (· != 'x') = true :=
    List.any_eq_true.mpr ⟨sign, signMember, bne_iff_ne.mpr (sign_ne isSign rfl)⟩
  have only : OnlyAtHoles token (around start ['x']) :=
    onlyAtHoles_around nonempty fun _ _ same =>
      Nat.le_antisymm (le_of_marked same signed unsigned) (ge_of_marked same notX rfl)
  have noZero : '0' ∉ start := fun inStart =>
    isAssignment.probe_notMem subset (List.mem_append_left _ inStart)
  refine ⟨only, onlyAtHoles_probe noZero (by decide), ?_⟩
  have text : fill token (around start ['x']) = [] ++ (key ++ sign :: (back ++ ['x'])) := by
    rw [fill_around, is, keyIs]
    simp
  have spaces : ∀ char ∈ fill token (around start ['x']), isSpace char = false := by
    rw [fill_around]
    refine List.forall_mem_append.mpr ⟨List.forall_mem_append.mpr ⟨fun char inStart => ?_, noSpace⟩,
      List.forall_mem_singleton.mpr rfl⟩
    exact isAssignment.space_notMem subset char (List.mem_append_left _ inStart)
  have backQuote : ∀ char ∈ back, isQuote char = false := fun char inBack =>
    noQuote char (is ▸ List.mem_append_right _ inBack)
  have hidden := ends_redact isKey isSign nonempty (not_ends_of_noQuote noQuote) spaces text
    (List.forall_mem_append.mpr ⟨backQuote, List.forall_mem_singleton.mpr rfl⟩) (by simp)
  have length : (key ++ [sign]).length = start.length + (others.length + 1) := by
    rw [word, List.length_append, List.length_append, List.length_singleton]
  have short := isAssignment.short
  have shown := (probe_shows _ member start.length (by omega) (List.length_pos_iff.mpr some)
    (by omega)).2
  rw [word, List.take_left] at shown
  exact redact_ne (by decide) hidden (.of_getLast? shown)

end Differences

/-! ### A quote in the token -/

theorem hideSecret_of_notMem {char : Char} (inSecret : char ∈ token) {text : List Char}
    (missing : char ∉ text) : hideSecret token text = text := by
  have nonempty : token ≠ [] := List.ne_nil_of_mem inSecret
  induction text using hide_induction nonempty with
  | nil => exact hideSecret_nil token
  | skip first rest elsewhere ih =>
    rw [hideSecret_cons elsewhere, ih fun member => missing (List.mem_cons_of_mem _ member)]
  | found rest _ => exact absurd (List.mem_append_left rest inSecret) missing

/-- A run of one letter, longer than a token that has another one, keeps its end. -/
theorem ends_of_run {letter other : Char} (inToken : other ∈ token) (differ : other ≠ letter)
    {front : List Char} {count : Nat} (long : token.length < count) :
    Ends letter (hideSecret token (front ++ .replicate count letter)) := by
  have nonempty : token ≠ [] := List.ne_nil_of_mem inToken
  have run : ∀ size, 0 < size → Ends letter (hideSecret token (.replicate size letter)) := by
    intro size positive
    have missing : other ∉ List.replicate size letter := fun member =>
      differ (List.eq_of_mem_replicate member)
    rw [hideSecret_of_notMem inToken missing]
    obtain ⟨size, rfl⟩ := Nat.exists_eq_add_one_of_ne_zero (Nat.ne_of_gt positive)
    exact ⟨_, List.replicate_succ'⟩
  generalize is : front ++ List.replicate count letter = text
  induction text using hide_induction nonempty generalizing front with
  | nil =>
    have none := congrArg List.length is
    rw [List.length_append, List.length_replicate, List.length_nil] at none
    omega
  | skip first rest elsewhere ih =>
    cases front with
    | nil =>
      rw [← is]
      exact run count (by omega)
    | cons char front =>
      rw [hideSecret_cons elsewhere]
      exact (ih (List.cons.inj is).2).append [first]
  | found rest ih =>
    rw [hideSecret_append nonempty]
    by_cases short : token.length ≤ front.length
    · obtain ⟨between, -, same⟩ := exists_append_of_le is.symm short
      exact (ih same.symm).append stars
    · obtain ⟨between, split, same⟩ := exists_append_of_le is (by omega)
      have all := List.eq_replicate_of_mem fun char member =>
        List.eq_of_mem_replicate (same ▸ List.mem_append_right between member)
      have lengths := congrArg List.length same
      have inside := congrArg List.length split
      rw [List.length_append] at lengths inside
      rw [List.length_replicate] at lengths
      have later := run rest.length (by omega)
      rw [← all] at later
      exact later.append stars

section Quotes

variable (noSpace : ∀ char ∈ token, isSpace char = false)

include noSpace

/-- A quote in the token, with no assignment behind the last one. -/
theorem differs_of_quote {front back : List Char} {quote : Char}
    (is : token = front ++ quote :: back) (isQuote : isQuote quote = true)
    (noQuote : ∀ char ∈ back, Action.isQuote char = false)
    (none : ∀ key ∈ [secretKey, relayToken], ∀ before sign after, isSign sign = true →
      back ≠ before ++ (key ++ sign :: after)) :
    Differs token (around "relay_token=x".toList (.replicate (token.length + 1) 'x')) := by
  have member : quote ∈ token := is ▸ by simp
  have nonempty : token ≠ [] := List.ne_nil_of_mem member
  have notX : quote ≠ 'x' := by
    rintro rfl
    cases isQuote
  generalize long : token.length + 1 = count
  have runQuotes : (List.replicate count 'x').any Action.isQuote = false :=
    List.any_eq_false.mpr fun char inRun => by
      rw [List.eq_of_mem_replicate inRun]
      decide
  have marked : token.any Action.isQuote = true := List.any_eq_true.mpr ⟨quote, member, isQuote⟩
  have only : OnlyAtHoles token (around "relay_token=x".toList (.replicate count 'x')) :=
    onlyAtHoles_around nonempty fun _ _ same =>
      Nat.le_antisymm (le_of_marked same marked (by decide)) (ge_of_marked same marked runQuotes)
  have noZero : '0' ∉ List.replicate count 'x' := fun inRun =>
    absurd (List.eq_of_mem_replicate inRun) (by decide)
  refine ⟨only, onlyAtHoles_probe (by decide) noZero, ?_⟩
  have runPlain : Plain (.replicate count 'x') := fun char inRun => by
    rw [List.eq_of_mem_replicate inRun]
    rfl
  -- the tail behind the last quote has no assignment, so the run is still there to be seen
  have tailPlain : Plain (back ++ .replicate count 'x') := by
    refine List.forall_mem_append.mpr ⟨plain_of (fun char inBack => noSpace char ?_) noQuote,
      runPlain⟩
    rw [is]
    exact List.mem_append_right _ (List.mem_cons_of_mem _ inBack)
  have noAssignment : ∀ key ∈ [secretKey, relayToken], ∀ before sign after, isSign sign = true →
      back ++ .replicate count 'x' ≠ before ++ (key ++ sign :: after) := by
    intro key isKey before sign after isSign same
    rw [← List.append_assoc] at same
    by_cases inside : (before ++ key).length < back.length
    · obtain ⟨between, split, later⟩ := exists_append_of_le same.symm (Nat.le_of_lt inside)
      cases between with
      | nil => exact absurd (congrArg List.length split) (by simpa using Nat.ne_of_gt inside)
      | cons first between =>
        obtain ⟨rfl, -⟩ := List.cons.inj later
        exact none key isKey before sign between isSign (by rw [split, List.append_assoc])
    · obtain ⟨between, -, later⟩ := exists_append_of_le same (Nat.not_lt.mp inside)
      have inRun : sign ∈ List.replicate count 'x' := later ▸ by simp
      exact sign_ne isSign rfl (List.eq_of_mem_replicate inRun)
  have cut : Cut (fill token (around "relay_token=x".toList (.replicate count 'x')))
      (back ++ .replicate count 'x') :=
    .inr ⟨"relay_token=x".toList ++ front, quote, isQuote, by rw [fill_around, is]; simp⟩
  have shown : Ends 'x' (redact (fill token
      (around "relay_token=x".toList (.replicate count 'x'))) [token]) := by
    rw [redact_eq]
    rcases cut.masked tailPlain noAssignment with same | ⟨before, other, -, same⟩
    · rw [same]
      exact ends_of_run member notX (by omega)
    · rw [same, ← List.cons_append, ← List.append_assoc]
      exact ends_of_run member notX (by omega)
  have hidden : Ends '"' (redact (fill probe
      (around "relay_token=x".toList (.replicate count 'x'))) [probe]) := by
    have text : fill probe (around "relay_token=x".toList (.replicate count 'x')) =
        [] ++ (relayToken ++ '=' :: ('x' :: '0' :: .replicate count 'x')) := by
      rw [fill_around]
      rfl
    have bare : Plain ('x' :: '0' :: .replicate count 'x') :=
      List.forall_mem_cons.mpr ⟨rfl, List.forall_mem_cons.mpr ⟨rfl, runPlain⟩⟩
    have spaces : ∀ char ∈ fill probe (around "relay_token=x".toList (.replicate count 'x')),
        isSpace char = false := by
      rw [text, List.nil_append]
      have keyBare : ∀ char ∈ relayToken ++ ['='], isSpace char = false :=
        eq_false_of_any (isAssignment_of_mem (by decide)).noSpace
      have whole : ∀ value, relayToken ++ '=' :: value = relayToken ++ ['='] ++ value := by simp
      rw [whole]
      exact List.forall_mem_append.mpr ⟨keyBare,
        fun char inValue => isSpace_of_isBare (bare char inValue)⟩
    exact ends_redact isKey_relayToken rfl (by decide) (not_ends_of_noQuote probe_noQuote)
      spaces text
      (fun char inValue => isQuote_of_isBare (bare char inValue)) (List.cons_ne_nil _ _)
  exact (redact_ne (by decide) hidden shown).symm

end Quotes

/-! ### Small tokens -/

/-- A token from the middle of an assignment, but for a letter that is in it more than once. -/
theorem differs_inside : ∀ word ∈ assignments, ∀ start < 12, ∀ size < 12, 0 < start ∧ 0 < size ∧
    start + size < word.length ∧ (word.drop start).take size ≠ ['e'] →
    Differs ((word.drop start).take size)
      (around (word.take start) (word.drop (start + size) ++ ['x'])) := by
  refine List.forall_mem_cons.mpr ⟨?_, List.forall_mem_cons.mpr ⟨?_, List.forall_mem_cons.mpr
    ⟨?_, List.forall_mem_singleton.mpr ?_⟩⟩⟩ <;> decide +kernel

theorem differs_e : Differs ['e'] [.text ['s'], .token, .text ['c', 'r'], .token,
    .text ['t', '_', 'k'], .token, .text ['y', '=', 'x']] := by
  decide +kernel

theorem differs_of_mask : ∀ token ∈ [['*'], ['*', '*']],
    Differs token [.text "relay_token:".toList, .token] := by
  decide +kernel

/-! ### A token that is written as another text -/

/-- A character is written as it is, or as a text that starts with a backslash and does not go on
with the first letter of a key. -/
theorem escapeChar_cases {char : Char} (bare : isBare char = true) :
    escapeChar char = [char] ∨ ∃ rest, escapeChar char = '\\' :: rest ∧ rest ≠ [] ∧
      rest.all (fun other => isBare other && other != 's' && other != 'r') = true := by
  have hex : ∀ code < 128,
      (hex4 code).all (fun other => isBare other && other != 's' && other != 'r') = true := by
    decide +kernel
  have not : ∀ other, isBare other = false → char ≠ other := fun other special same => by
    rw [same, special] at bare
    cases bare
  unfold escapeChar
  rw [if_neg (not _ rfl)]
  by_cases backslash : char = '\\'
  · rw [if_pos backslash]
    exact .inr ⟨_, rfl, by decide, rfl⟩
  rw [if_neg backslash, if_neg (not _ rfl), if_neg (not _ rfl), if_neg (not _ rfl)]
  split_ifs
  · refine .inr ⟨_, rfl, List.cons_ne_nil _ _, ?_⟩
    rw [List.all_cons, hex _ (by omega)]
    rfl
  · exact .inl rfl

theorem prefix_of_escaped {text word : List Char} (plain : Plain text) (noEscape : '\\' ∉ word)
    (starts : word <+: text.flatMap escapeChar) : word <+: text := by
  induction text generalizing word with
  | nil => exact starts
  | cons char text ih =>
    cases word with
    | nil => exact List.nil_prefix
    | cons letter word =>
      rw [List.flatMap_cons] at starts
      rcases escapeChar_cases (plain char List.mem_cons_self) with same | ⟨rest, escape, -⟩
      · rw [same] at starts
        obtain ⟨rfl, later⟩ := List.cons_prefix_cons.mp starts
        refine List.cons_prefix_cons.mpr ⟨rfl, ih (Plain.of_cons plain) (fun member => ?_) later⟩
        exact noEscape (List.mem_cons_of_mem _ member)
      · rw [escape] at starts
        obtain ⟨rfl, -⟩ := List.cons_prefix_cons.mp starts
        exact absurd List.mem_cons_self noEscape

theorem infix_of_append {front text word : List Char} {letter : Char} (missing : letter ∉ front)
    (isInfix : letter :: word <:+: front ++ text) : letter :: word <:+: text := by
  induction front with
  | nil => exact isInfix
  | cons char front ih =>
    rw [List.mem_cons, not_or] at missing
    rcases List.infix_cons_iff.mp isInfix with starts | later
    · exact absurd (List.cons_prefix_cons.mp starts).1 missing.1
    · exact ih missing.2 later

/-- An assignment in the written token is one in the token. -/
theorem infix_of_escaped {text word : List Char} (plain : Plain text)
    (noEscape : '\\' ∉ word) (first : word.head? = some 's' ∨ word.head? = some 'r')
    (isInfix : word <:+: text.flatMap escapeChar) : word <:+: text := by
  induction text with
  | nil => exact isInfix
  | cons char text ih =>
    by_cases starts : word <+: (char :: text).flatMap escapeChar
    · exact (prefix_of_escaped plain noEscape starts).isInfix
    refine (ih (Plain.of_cons plain) ?_).trans (List.suffix_cons char text).isInfix
    obtain _ | ⟨letter, word⟩ := word
    · exact absurd first (by decide)
    rw [List.flatMap_cons] at isInfix starts
    rcases escapeChar_cases (plain char List.mem_cons_self) with same | ⟨rest, escape, -, others⟩
    · rw [same] at isInfix starts
      exact (List.infix_cons_iff.mp isInfix).resolve_left starts
    · rw [escape] at isInfix
      refine infix_of_append (fun member => ?_) isInfix
      rcases List.mem_cons.mp member with rfl | inRest
      · exact noEscape List.mem_cons_self
      · have notFirst := List.all_eq_true.mp others letter inRest
        rw [Bool.and_eq_true, Bool.and_eq_true, bne_iff_ne, bne_iff_ne] at notFirst
        rcases first with same | same
        · exact notFirst.1.2 (Option.some.inj same)
        · exact notFirst.2 (Option.some.inj same)

theorem maskAssignments_append {letter : Char} {key front text : List Char}
    (missing : letter ∉ front) :
    maskAssignments (letter :: key) (front ++ text) =
      front ++ maskAssignments (letter :: key) text := by
  induction front with
  | nil => rfl
  | cons char front ih =>
    rw [List.mem_cons, not_or] at missing
    rw [List.cons_append, maskAssignments_cons (afterAssignment_ne (Ne.symm missing.1)),
      ih missing.2]
    rfl

theorem hideSecret_length (text : List Char) (nonempty : token ≠ []) :
    hideSecret token text = text ∨ 3 ≤ (hideSecret token text).length := by
  induction text using hide_induction nonempty with
  | nil => exact .inl (hideSecret_nil token)
  | skip char rest elsewhere ih =>
    rw [hideSecret_cons elsewhere]
    exact ih.imp (congrArg (char :: ·)) fun long => Nat.le_succ_of_le long
  | found rest _ =>
    rw [hideSecret_append nonempty, List.length_append]
    exact .inr (Nat.le_add_right 3 _)

/-- A text that is hidden whole is the secret, or was stars before. -/
theorem eq_of_hideSecret {text : List Char} (nonempty : token ≠ [])
    (hidden : hideSecret token text = stars) : text = token ∨ text = stars := by
  induction text using hide_induction nonempty with
  | nil =>
    rw [hideSecret_nil] at hidden
    cases hidden
  | skip char rest elsewhere _ =>
    rw [hideSecret_cons elsewhere] at hidden
    obtain ⟨rfl, later⟩ := List.cons.inj hidden
    rcases hideSecret_length rest nonempty with same | long
    · rw [same] at later
      exact .inr (congrArg _ later)
    · rw [later] at long
      exact absurd long (by decide)
  | found rest _ =>
    rw [hideSecret_append nonempty] at hidden
    have none : hideSecret token rest = [] :=
      List.append_cancel_left (hidden.trans (List.append_nil _).symm)
    rcases hideSecret_length rest nonempty with same | long
    · rw [← same, none, List.append_nil]
      exact .inl rfl
    · rw [none] at long
      exact absurd long (by decide)

/-- A character that the secret does not hold parts what is hidden. -/
theorem hideSecret_around {text front back : List Char} {char : Char} (nonempty : token ≠ [])
    (missing : char ∉ token) (is : text = front ++ char :: back) :
    hideSecret token text = hideSecret token front ++ char :: hideSecret token back := by
  induction text using hide_induction nonempty generalizing front with
  | nil => exact absurd is.symm (by simp)
  | skip first rest elsewhere ih =>
    cases front with
    | nil =>
      obtain ⟨rfl, rfl⟩ := List.cons.inj is
      rw [hideSecret_cons elsewhere, hideSecret_nil]
      rfl
    | cons letter front =>
      obtain ⟨rfl, later⟩ := List.cons.inj is
      have elsewhere' : ¬ token <+: first :: front := fun starts => elsewhere <| by
        rw [is]
        exact starts.trans (List.prefix_append _ _)
      rw [hideSecret_cons elsewhere, hideSecret_cons elsewhere', ih later]
      rfl
  | found rest ih =>
    have whole : [] ++ token ++ rest = front ++ char :: back := is
    have ends := (beside_of_notMem whole missing).resolve_right (Nat.not_lt_zero _)
    rw [List.length_nil, Nat.zero_add] at ends
    obtain ⟨between, rfl, later⟩ := exists_append_of_le is ends
    rw [hideSecret_append nonempty, hideSecret_append nonempty, ih later, List.append_assoc]

theorem tail_eq {front back front' back' : List Char} {char : Char}
    (same : front ++ char :: back = front' ++ char :: back') (missing : char ∉ back)
    (missing' : char ∉ back') : back = back' := by
  have shorter : ∀ {front back front' back' : List Char},
      front ++ char :: back = front' ++ char :: back' → front.length ≤ front'.length →
      char ∉ back → back = back' := by
    intro front back front' back' same le missing
    obtain ⟨between, -, later⟩ := exists_append_of_le same le
    cases between with
    | nil => exact (List.cons.inj later).2
    | cons first between =>
      refine absurd ?_ missing
      rw [(List.cons.inj later).2]
      exact List.mem_append_right _ List.mem_cons_self
  rcases Nat.le_total front.length front'.length with le | le
  · exact shorter same le missing
  · exact (shorter same.symm le missing').symm

theorem plain_flatMap {text : List Char} (plain : Plain text) :
    Plain (text.flatMap escapeChar) := by
  intro char member
  obtain ⟨source, inText, inEscape⟩ := List.mem_flatMap.mp member
  have bare := plain source inText
  rcases escapeChar_cases bare with same | ⟨rest, escape, -, others⟩
  · rw [same, List.mem_singleton] at inEscape
    rwa [inEscape]
  · rw [escape] at inEscape
    rcases List.mem_cons.mp inEscape with rfl | inRest
    · rfl
    · have all := List.all_eq_true.mp others char inRest
      rw [Bool.and_eq_true, Bool.and_eq_true] at all
      exact all.1.1

/-- A text that is written as it is. -/
theorem escapeChar_of_flatMap {text : List Char} (plain : Plain text)
    (same : text.flatMap escapeChar = text) : ∀ char ∈ text, escapeChar char = [char] := by
  have longer : ∀ text, Plain text → text.length ≤ (text.flatMap escapeChar).length := by
    intro text plain
    rw [List.length_flatMap, ← List.length_map fun char => (escapeChar char).length]
    refine List.length_le_sum_of_one_le _ fun size member => ?_
    obtain ⟨char, inText, rfl⟩ := List.mem_map.mp member
    rcases escapeChar_cases (plain char inText) with same | ⟨rest, escape, -⟩
    · rw [same]
      rfl
    · rw [escape]
      exact Nat.le_add_left 1 _
  induction text with
  | nil => exact fun _ member => nomatch member
  | cons char text ih =>
    rw [List.flatMap_cons] at same
    have later := longer text (Plain.of_cons plain)
    rcases escapeChar_cases (plain char List.mem_cons_self) with here | ⟨rest, escape, nonempty, -⟩
    · rw [here] at same
      exact List.forall_mem_cons.mpr ⟨here, ih (Plain.of_cons plain) (List.cons.inj same).2⟩
    · have lengths := congrArg List.length same
      have positive := List.length_pos_iff.mpr nonempty
      rw [escape, List.length_append, List.length_cons, List.length_cons] at lengths
      omega

theorem notMem_hideSecret {char : Char} {text : List Char} (nonempty : token ≠ [])
    (other : char ∉ stars) (missing : char ∉ text) : char ∉ hideSecret token text := by
  induction text using hide_induction nonempty with
  | nil => rwa [hideSecret_nil]
  | skip first rest elsewhere ih =>
    rw [List.mem_cons, not_or] at missing
    rw [hideSecret_cons elsewhere, List.mem_cons, not_or]
    exact ⟨missing.1, ih missing.2⟩
  | found rest ih =>
    rw [List.mem_append, not_or] at missing
    rw [hideSecret_append nonempty, List.mem_append, not_or]
    exact ⟨other, ih missing.2⟩

/-- The key is masked where it is the value of another, and so not where it has one. -/
def nested : List Piece := [.text "relay_token=".toList, .configLine]

theorem fill_nested (token : List Char) : fill token nested =
    "relay_token=relay_token".toList ++
      ' ' :: ("= \"".toList ++ token.flatMap escapeChar ++ ['"']) := by
  rw [fill, nested, List.flatMap_cons, List.flatMap_cons, List.flatMap_nil, List.append_nil]
  show "relay_token=".toList ++ configLine token = _
  rw [configLine_eq]
  rfl

/-- The written token is still in the log when the secrets are hidden. -/
theorem masked_nested (plain : Plain token) (none : ∀ word ∈ assignments, ¬ word <:+: token) :
    masked (fill token nested) =
      mask relayToken ++ " = ".toList ++ '"' :: (token.flatMap escapeChar ++ ['"']) := by
  have written := plain_flatMap plain
  have same : ∀ key ∈ [secretKey, relayToken],
      maskAssignments key (token.flatMap escapeChar ++ ['"']) =
        token.flatMap escapeChar ++ ['"'] := by
    intro key isKey
    refine maskAssignments_eq_self (List.forall_mem_append.mpr
      ⟨fun char member => isSpace_of_isBare (written char member),
        List.forall_mem_singleton.mpr rfl⟩) ?_
    intro front sign back isSign whole
    have member := mem_assignments isKey isSign
    have facts : ∀ word ∈ assignments,
        '"' ∉ word ∧ '\\' ∉ word ∧ (word.head? = some 's' ∨ word.head? = some 'r') := by decide
    obtain ⟨noQuote, noEscape, first⟩ := facts _ member
    refine none _ member (infix_of_escaped plain noEscape first ?_)
    have parts : front ++ (key ++ [sign]) ++ back = token.flatMap escapeChar ++ '"' :: [] := by
      rw [whole]
      simp
    have lengths := congrArg List.length parts
    rw [List.length_append, List.length_append, List.length_append, List.length_append] at lengths
    have sides := beside_of_notMem parts noQuote
    rw [List.length_append] at sides
    rw [List.length_singleton, List.length_singleton] at *
    obtain ⟨between, is, -⟩ := exists_append_of_le parts (by
      rw [List.length_append, List.length_append]
      simp only [List.length_singleton]
      omega)
    exact ⟨front, between, is.symm⟩
  have first : maskAssignments secretKey (fill token nested) = fill token nested := by
    have whole : fill token nested = "relay_token=relay_token = \"".toList ++
        (token.flatMap escapeChar ++ ['"']) := by
      rw [fill_nested]
      simp
    have key : secretKey = 's' :: "ecret_key".toList := by decide
    rw [whole, key, maskAssignments_append (by decide), ← key, same secretKey isKey_secretKey]
  have value : afterAssignment relayToken (fill token nested) =
      some (' ' :: ("= \"".toList ++ token.flatMap escapeChar ++ ['"'])) := by
    rw [fill_nested]
    rfl
  have key : relayToken = 'r' :: "elay_token".toList := by decide
  have rest : ' ' :: ("= \"".toList ++ token.flatMap escapeChar ++ ['"']) =
      " = \"".toList ++ (token.flatMap escapeChar ++ ['"']) := by simp
  have later : maskAssignments relayToken (" = \"".toList ++ (token.flatMap escapeChar ++ ['"'])) =
      " = \"".toList ++ (token.flatMap escapeChar ++ ['"']) := by
    rw [key, maskAssignments_append (by decide), ← key, same relayToken isKey_relayToken]
  rw [masked, first, maskAssignments_match value, rest, later]
  simp

/-- The written token is shown where it is not the token. -/
theorem redact_nested (plain : Plain token) (nonempty : token ≠ [])
    (none : ∀ word ∈ assignments, ¬ word <:+: token) :
    ∃ front, redact (fill token nested) [token] =
      front ++ '"' :: (hideSecret token (token.flatMap escapeChar) ++ ['"']) := by
  have noQuote : '"' ∉ token := fun member => absurd (plain '"' member) (by decide)
  refine ⟨hideSecret token (mask relayToken ++ " = ".toList), ?_⟩
  rw [redact_eq, masked_nested plain none, hideSecret_around nonempty noQuote rfl,
    hideSecret_around nonempty noQuote rfl, hideSecret_nil]

theorem onlyAtHoles_nested (plain : Plain token) {char : Char} (member : char ∈ token)
    (special : escapeChar char ≠ [char]) : OnlyAtHoles token nested := by
  intro position starts
  have positive := List.length_pos_of_mem member
  have size : "relay_token=".toList.length = 12 := rfl
  by_cases before : position < 12
  · -- all that stands there is written as it is
    have asIs : "relay_token=relay_token".toList.all (fun other => escapeChar other == [other]) =
        true := by decide
    have short : position ≤ "relay_token=relay_token".toList.length :=
      Nat.le_trans (Nat.le_of_lt before) (by decide)
    have missing : ' ' ∉ token := fun blank => absurd (plain ' ' blank) (by decide)
    rw [fill_nested, List.drop_append_of_le_length short] at starts
    have inside := (prefix_of_blank missing starts).subset member
    exact absurd (eq_of_beq (List.all_eq_true.mp asIs char (List.mem_of_mem_drop inside))) special
  · have within := starts.length_le
    rw [List.length_drop, fill, nested, List.flatMap_cons, List.flatMap_cons, List.flatMap_nil,
      List.append_nil, List.length_append] at within
    simp only [Piece.fill, size] at within
    simp only [inHole, nested, Piece.fill, Piece.isHole, size, if_neg before, Bool.true_and]
    rw [if_pos (by omega), decide_eq_true_iff]
    omega

/-- A token that `str` writes as another text. -/
theorem differs_of_escape (plain : Plain token) (none : ∀ word ∈ assignments, ¬ word <:+: token)
    {char : Char} (member : char ∈ token) (special : escapeChar char ≠ [char]) :
    Differs token nested := by
  have nonempty : token ≠ [] := List.ne_nil_of_mem member
  have noQuote : ∀ {text}, Plain text → '"' ∉ text := fun plain member =>
    absurd (plain '"' member) (by decide)
  refine ⟨onlyAtHoles_nested plain member special, by decide, fun same => ?_⟩
  obtain ⟨front, shown⟩ := redact_nested plain nonempty none
  have hidden : redact (fill probe nested) [probe] =
      "relay_token = \"***\" = ".toList ++ '"' :: (stars ++ ['"']) := by decide
  rw [shown, hidden, ← List.cons_append, ← List.append_assoc, ← List.cons_append,
    ← List.append_assoc] at same
  have whole := tail_eq (List.append_cancel_right same)
    (notMem_hideSecret nonempty (by decide) (noQuote (plain_flatMap plain))) (by decide)
  rcases eq_of_hideSecret nonempty whole with written | isStars
  · exact special (escapeChar_of_flatMap plain written char member)
  · rcases escapeChar_cases (plain char member) with written | ⟨rest, escape, -⟩
    · exact special written
    · have backslash : '\\' ∈ token.flatMap escapeChar :=
        List.mem_flatMap.mpr ⟨char, member, escape ▸ List.mem_cons_self⟩
      rw [isStars] at backslash
      exact absurd backslash (by decide)

/-! ### Every token that is not inert -/

theorem exists_of_mem_assignments {word : List Char} (member : word ∈ assignments) :
    ∃ key ∈ [secretKey, relayToken], ∃ sign, isSign sign = true ∧ word = key ++ [sign] := by
  rw [assignments, List.mem_cons, List.mem_cons, List.mem_cons, List.mem_singleton] at member
  rcases member with is | is | is | is
  · exact ⟨secretKey, isKey_secretKey, '=', rfl, is⟩
  · exact ⟨secretKey, isKey_secretKey, ':', rfl, is⟩
  · exact ⟨relayToken, isKey_relayToken, '=', rfl, is⟩
  · exact ⟨relayToken, isKey_relayToken, ':', rfl, is⟩

theorem not_infix_of_clear
    (clear : ∀ key ∈ [secretKey, relayToken], ∀ sign, isSign sign = true →
      Clear token (key ++ [sign])) : ∀ word ∈ assignments, ¬ word <:+: token := by
  rintro word member ⟨front, back, is⟩
  obtain ⟨key, isKey, sign, isSign, rfl⟩ := exists_of_mem_assignments member
  have shares := clear key isKey sign isSign [] [] front back (by simp [← is])
  rw [← is] at shares
  simp only [List.length_append, List.length_nil, List.length_singleton] at shares
  omega

/-- Two words of one text that share a character. -/
inductive Overlap (word other : List Char) : Prop
  | contains (front back : List Char) (is : word = front ++ (other ++ back))
  | ends (front start rest : List Char) (is : word = front ++ start) (cut : other = start ++ rest)
      (some : start ≠ []) (more : rest ≠ [])
  | starts (start rest back : List Char) (is : word = rest ++ back) (cut : other = start ++ rest)
      (some : start ≠ []) (more : rest ≠ [])
  | inside (start rest : List Char) (is : other = start ++ (word ++ rest)) (some : start ≠ [])
      (more : rest ≠ [])

theorem overlap_of_shared {before word after front other back : List Char}
    (same : before ++ (word ++ after) = front ++ (other ++ back))
    (starts : front.length < before.length + word.length)
    (ends : before.length < front.length + other.length) : Overlap word other := by
  by_cases first : before.length ≤ front.length
  · obtain ⟨lead, rfl, later⟩ := exists_append_of_le same first
    rw [List.length_append] at starts ends
    obtain ⟨start, rfl, rest⟩ := exists_append_of_le later.symm (by omega)
    rw [List.length_append] at starts
    by_cases all : other.length ≤ start.length
    · obtain ⟨between, rfl, -⟩ := exists_append_of_le rest all
      exact .contains lead between rfl
    · obtain ⟨between, rfl, -⟩ := exists_append_of_le rest.symm (Nat.le_of_not_le all)
      rw [List.length_append] at all
      exact .ends lead start between rfl rfl (List.length_pos_iff.mp (by omega))
        (List.length_pos_iff.mp (by omega))
  · obtain ⟨start, rfl, later⟩ := exists_append_of_le same.symm (by omega)
    rw [List.length_append] at first ends
    obtain ⟨tail, rfl, rest⟩ := exists_append_of_le later.symm (by omega)
    rw [List.length_append] at ends
    have some : start ≠ [] := List.length_pos_iff.mp (by omega)
    by_cases all : tail.length ≤ word.length
    · obtain ⟨between, rfl, -⟩ := exists_append_of_le rest.symm all
      exact .starts start tail between rfl rfl some (List.length_pos_iff.mp (by omega))
    · obtain ⟨between, rfl, -⟩ := exists_append_of_le rest (Nat.le_of_not_le all)
      rw [List.length_append] at all
      exact .inside start between rfl some (List.length_pos_iff.mp (by omega))

section Exact

variable (nonempty : token ≠ []) (noSpace : ∀ char ∈ token, isSpace char = false)

include nonempty noSpace

/-- A token that shares a character with an assignment. -/
theorem exists_differs_of_overlap (noQuote : ∀ char ∈ token, isQuote char = false)
    {key : List Char} {sign : Char} (isKey : key ∈ [secretKey, relayToken])
    (isSign : isSign sign = true) (shared : Overlap token (key ++ [sign])) :
    ∃ template, Differs token template := by
  have member := mem_assignments isKey isSign
  cases shared with
  | contains front back is =>
    rw [List.append_assoc, List.singleton_append] at is
    refine ⟨_, differs_of_assignment nonempty noSpace isKey isSign is fun char inBack => ?_⟩
    exact noQuote char (is ▸ by simp [inBack])
  | ends front start rest is cut some more =>
    exact ⟨_, differs_of_back nonempty noSpace isKey isSign noQuote is cut some more⟩
  | starts start rest back is cut some more =>
    exact ⟨_, differs_of_front nonempty noSpace isKey isSign noQuote is cut some more⟩
  | inside start rest is some more =>
    by_cases letter : token = ['e']
    · exact ⟨_, letter ▸ differs_e⟩
    have lengths := congrArg List.length is
    have short := (isAssignment_of_mem member).short
    simp only [List.length_append, List.length_singleton] at lengths short
    have startPositive := List.length_pos_iff.mpr some
    have positive := List.length_pos_iff.mpr nonempty
    have restPositive := List.length_pos_iff.mpr more
    have part : ((key ++ [sign]).drop start.length).take token.length = token := by
      rw [is, List.drop_left, List.take_left]
    have before : start.length + token.length < (key ++ [sign]).length := by
      simp only [List.length_append, List.length_singleton]
      omega
    have differs := differs_inside _ member start.length (by omega) token.length (by omega)
      ⟨startPositive, positive, before, by rwa [part]⟩
    rw [part] at differs
    exact ⟨_, differs⟩

theorem exists_differs (notInert : ¬ Inert token) : ∃ template, Differs token template := by
  rcases exists_last_quote token with noQuote | ⟨front, quote, back, is, isQuote, none⟩
  · by_cases clear : ∀ key ∈ [secretKey, relayToken], ∀ sign, isSign sign = true →
        Clear token (key ++ [sign])
    · by_cases plain : ∀ char ∈ token, escapeChar char = [char]
      · have isMask : token ∈ [['*'], ['*', '*']] := by
          by_contra other
          rw [List.mem_cons, List.mem_singleton, not_or] at other
          exact notInert ⟨noQuote, plain, clear, other⟩
        exact ⟨_, differs_of_mask token isMask⟩
      · obtain ⟨char, member, special⟩ : ∃ char ∈ token, escapeChar char ≠ [char] := by
          by_contra none
          exact plain fun char member => by_contra fun other => none ⟨char, member, other⟩
        exact ⟨_, differs_of_escape (plain_of noSpace noQuote) (not_infix_of_clear clear)
          member special⟩
    · by_contra none
      refine clear fun key isKey sign isSign before after front back same => ?_
      by_contra shares
      rw [not_or, Nat.not_le, Nat.not_le] at shares
      rw [List.append_assoc, List.append_assoc front] at same
      exact none (exists_differs_of_overlap nonempty noSpace noQuote isKey isSign
        (overlap_of_shared same shares.1 shares.2))
  · by_cases assigned : ∃ key ∈ [secretKey, relayToken], ∃ before sign after, isSign sign = true ∧
        back = before ++ (key ++ sign :: after)
    · obtain ⟨key, isKey, before, sign, after, isSign, rfl⟩ := assigned
      have whole : token = front ++ quote :: before ++ (key ++ sign :: after) := by simp [is]
      refine ⟨_, differs_of_assignment nonempty noSpace isKey isSign whole fun char inAfter => ?_⟩
      exact none char (by simp [inAfter])
    · refine ⟨_, differs_of_quote noSpace is isQuote none
        fun key isKey before sign after isSign same => ?_⟩
      exact assigned ⟨key, isKey, before, sign, after, isSign, same⟩

end Exact

theorem accepted_probe : Accepted probe :=
  ⟨serveInputs "0", .inr ⟨webRequest "0", by rfl, by rfl⟩⟩

theorem inert_probe : Inert probe := by
  refine ⟨probe_noQuote, List.forall_mem_singleton.mpr rfl, fun key isKey sign isSign => ?_,
    by decide⟩
  intro before after front back same
  have noProbe : '0' ∉ key ++ [sign] := fun member => by
    have missing := (isAssignment_of_mem (mem_assignments isKey isSign)).noProbe
    rw [List.contains_iff_mem.mpr member] at missing
    cases missing
  have whole : front ++ (key ++ [sign]) ++ back = before ++ '0' :: after := by
    rw [← same, List.append_assoc]
    rfl
  exact (beside_of_notMem whole noProbe).symm.imp_left Nat.succ_le_of_lt

/-- **Redaction hides exactly the inert tokens.** -/
theorem redact_hides_iff (accepted : Accepted token) :
    (∀ other template, Accepted other → Inert other → OnlyAtHoles token template →
      OnlyAtHoles other template →
      redact (fill token template) [token] = redact (fill other template) [other]) ↔
    Inert token := by
  obtain ⟨nonempty, noSpace⟩ := nonempty_noSpace_of_accepted accepted
  constructor
  · intro hides
    by_contra notInert
    obtain ⟨template, only, onlyProbe, differs⟩ := exists_differs nonempty noSpace notInert
    exact differs (hides probe template accepted_probe inert_probe only onlyProbe)
  · intro inert other template acceptedOther inertOther only onlyOther
    obtain ⟨otherNonempty, otherNoSpace⟩ := nonempty_noSpace_of_accepted acceptedOther
    exact redact_alike ⟨inert, nonempty, noSpace⟩ ⟨inertOther, otherNonempty, otherNoSpace⟩ only
      onlyOther

theorem redact_hides_iff_probe : Inert probe ∧ ∀ other template, Accepted other → Inert other →
    OnlyAtHoles probe template → OnlyAtHoles other template →
    redact (fill probe template) [probe] = redact (fill other template) [other] :=
  ⟨inert_probe, (redact_hides_iff accepted_probe).mpr inert_probe⟩

/-- What stands behind a quote in the token is printed from the config line. -/
theorem quoted_token_shown :
    ¬ ∀ (token₁ token₂ : List Char) (template : List Piece), Accepted token₁ → Accepted token₂ →
      OnlyAtHoles token₁ template → OnlyAtHoles token₂ template →
      redact (fill token₁ template) [token₁] = redact (fill token₂ template) [token₂] := by
  intro hides
  have accepted : Accepted "a\"b".toList :=
    ⟨serveInputs "a\"b", .inr ⟨webRequest "a\"b", by rfl, by rfl⟩⟩
  have same := hides "a\"b".toList probe [.configLine] accepted accepted_probe (by decide)
      (by decide)
  have shown : redact (fill "a\"b".toList [.configLine]) ["a\"b".toList] =
      "relay_token = \"***\"b\"".toList := by decide
  have hidden : redact (fill probe [.configLine]) [probe] =
      "relay_token = \"***\"".toList := by decide
  rw [shown, hidden] at same
  exact absurd same (by decide)

end IrohTunnel.Action
