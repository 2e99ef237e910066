import RespLoad.Proofs.Settings.InPlace

/-!
# Lists of operations

What a list of operations may look like, said without the reader: names up to the case of their letters,
between separators (`Tokens`, `IsNamed`). A text is made of tokens in one way only. It is read as the
operations of its tokens, unless there are none or one of them is no name: then the first such token is
blamed. A list that is printed is read back. The place where a list is put is not touched before the text has
been read to its end.
-/
namespace RespLoad

namespace Bytes

/-- The same byte, or the same letter in the other case. -/
def SameLetter (a b : UInt8) : Prop :=
  a = b ∨ (65 ≤ a ∧ a ≤ 90 ∧ b = a + 32) ∨ (65 ≤ b ∧ b ≤ 90 ∧ a = b + 32)

theorem upper_eq_upper_iff {a b : UInt8} : upper a = upper b ↔ SameLetter a b := by
  unfold upper SameLetter
  grind

section Words

variable {isSeparator : UInt8 → Bool}

theorem words_nil : words isSeparator [] = [] := by
  rw [words, List.splitOnP_nil]
  rfl

/-- A text falls apart at a separator. -/
theorem words_append_cons {b : UInt8} (h : isSeparator b = true) (before behind : Bytes) :
    words isSeparator (before ++ b :: behind) =
      words isSeparator before ++ words isSeparator behind := by
  rw [words, List.splitOnP_append_cons _ _ h, List.filter_append, words, words]

theorem words_cons {b : UInt8} (h : isSeparator b = true) (text : Bytes) :
    words isSeparator (b :: text) = words isSeparator text := by
  have hsplit := words_append_cons h [] text
  rwa [words_nil, List.nil_append, List.nil_append] at hsplit

theorem words_of_plain {word : Bytes} (hne : word ≠ []) (h : ∀ b ∈ word, isSeparator b = false) :
    words isSeparator word = [word] := by
  rw [words, List.splitOnP_eq_singleton h, List.filter_cons_of_pos, List.filter_nil]
  rwa [Bool.not_eq_true', List.isEmpty_eq_false_iff]

end Words

end Bytes

namespace Operation

/-- Comma, blank, tab, line feed, vertical tab, form feed and carriage return. -/
def separators : Bytes := [44, 32, 9, 10, 11, 12, 13]

theorem isSeparator_iff {b : UInt8} : isSeparator b = true ↔ b ∈ separators := by
  unfold isSeparator Bytes.isBlank separators
  grind

theorem isSeparator_eq_false_iff {b : UInt8} : isSeparator b = false ↔ b ∉ separators := by
  rw [← isSeparator_iff, Bool.not_eq_true]

/-- How a text is made of tokens with separators around them. A token ends where the text ends or a separator
stands. -/
inductive Tokens : List Bytes → Bytes → Prop
  | nothing : Tokens [] []
  | separator {tokens : List Bytes} {text : Bytes} {b : UInt8} (hb : b ∈ separators)
      (hmore : Tokens tokens text) : Tokens tokens (b :: text)
  | token {tokens : List Bytes} {token text : Bytes} (hne : token ≠ [])
      (hplain : ∀ b ∈ token, b ∉ separators) (hstop : ∀ b, text.head? = some b → b ∈ separators)
      (hmore : Tokens tokens text) : Tokens (token :: tokens) (token ++ text)

theorem Tokens.words_eq {tokens : List Bytes} {text : Bytes} (h : Tokens tokens text) :
    Bytes.words isSeparator text = tokens := by
  induction h with
  | nothing => exact Bytes.words_nil
  | separator hb _ ih => rw [Bytes.words_cons (isSeparator_iff.mpr hb), ih]
  | @token tokens token text hne hplain hstop _ ih =>
    have hword := Bytes.words_of_plain hne fun b hb => isSeparator_eq_false_iff.mpr (hplain b hb)
    cases text with
    | nil => rw [← ih, Bytes.words_nil, List.append_nil, hword]
    | cons b text =>
      have hb := isSeparator_iff.mpr (hstop b rfl)
      rw [Bytes.words_append_cons hb, hword, ← ih, Bytes.words_cons hb, List.singleton_append]

theorem exists_tokens (text : Bytes) : ∃ tokens, Tokens tokens text := by
  induction text with
  | nil => exact ⟨[], .nothing⟩
  | cons b text ih =>
    obtain ⟨tokens, htext⟩ := ih
    by_cases hb : b ∈ separators
    · exact ⟨tokens, .separator hb htext⟩
    -- Another byte begins a token of its own, unless it stands in front of one.
    have hplain : ∀ c ∈ [b], c ∉ separators := List.forall_mem_singleton.mpr hb
    cases htext with
    | nothing => exact ⟨[[b]], .token (List.cons_ne_nil b []) hplain nofun .nothing⟩
    | @separator _ text c hc hmore =>
      refine ⟨[b] :: tokens, .token (List.cons_ne_nil b []) hplain ?_ (.separator hc hmore)⟩
      rintro _ ⟨⟩
      exact hc
    | @token tokens token text hne htoken hstop hmore =>
      exact ⟨(b :: token) :: tokens, .token (List.cons_ne_nil b token)
        (List.forall_mem_cons.mpr ⟨hb, htoken⟩) hstop hmore⟩

/-- The tokens of a text are its words. -/
theorem tokens_iff {tokens : List Bytes} {text : Bytes} :
    Tokens tokens text ↔ Bytes.words isSeparator text = tokens := by
  refine ⟨Tokens.words_eq, ?_⟩
  rintro rfl
  obtain ⟨tokens, htext⟩ := exists_tokens text
  rwa [htext.words_eq]

instance (tokens : List Bytes) (text : Bytes) : Decidable (Tokens tokens text) :=
  decidable_of_iff _ tokens_iff.symm

/-- The token is the name of the operation, up to the case of its letters. -/
def IsNamed (token : Bytes) (operation : Operation) : Prop :=
  List.Forall₂ Bytes.SameLetter token operation.name

theorem upper_name (operation : Operation) : operation.name.map Bytes.upper = operation.name := by
  cases operation <;> decide

theorem ofName?_name (operation : Operation) : ofName? operation.name = some operation := by
  cases operation <;> decide

theorem isNamed_iff {token : Bytes} {operation : Operation} :
    IsNamed token operation ↔ token.map Bytes.upper = operation.name := by
  rw [← upper_name, ← List.forall₂_eq_eq_eq, List.forall₂_map_left_iff, List.forall₂_map_right_iff]
  simp only [Bytes.upper_eq_upper_iff, IsNamed]

theorem ofName?_eq_some_iff {token : Bytes} {operation : Operation} :
    ofName? token = some operation ↔ IsNamed token operation := by
  rw [isNamed_iff]
  constructor
  · intro h
    rw [ofName?] at h
    have hname := List.find?_some h
    exact (beq_iff_eq.mp hname).symm
  · intro h
    have hname := ofName?_name operation
    rwa [ofName?, upper_name, ← h] at hname

theorem ofName?_eq_none_iff {token : Bytes} :
    ofName? token = none ↔ ∀ operation, ¬IsNamed token operation := by
  simp only [Option.eq_none_iff_forall_ne_some, ne_eq, ofName?_eq_some_iff]

instance (token : Bytes) (operation : Operation) : Decidable (IsNamed token operation) :=
  decidable_of_iff _ isNamed_iff.symm

/-- The tokens are refused, and why: there are none, or this is the first that is no name. -/
inductive Refuses : List Bytes → ListError → Prop
  | noName : Refuses [] .noName
  | unknownName {named more : List Bytes} {token : Bytes}
      (hnamed : ∀ token ∈ named, ∃ operation, IsNamed token operation)
      (hunknown : ∀ operation, ¬IsNamed token operation) :
      Refuses (named ++ token :: more) (.unknownName token)

theorem ofNames_eq_ok_iff {tokens : List Bytes} {operations : List Operation} :
    ofNames tokens = .ok operations ↔ List.Forall₂ IsNamed tokens operations := by
  induction tokens generalizing operations with
  | nil => rw [ofNames, Except.ok.injEq, eq_comm, List.forall₂_nil_left_iff]
  | cons token tokens ih =>
    rw [ofNames, List.forall₂_cons_left_iff]
    simp only [← ih, ← ofName?_eq_some_iff]
    cases ofName? token with
    | none => simp
    | some operation => cases ofNames tokens <;> simp [Except.map, eq_comm]

theorem ofNames_unknownName {named more : List Bytes} {token : Bytes}
    (hnamed : ∀ token ∈ named, ∃ operation, IsNamed token operation)
    (hunknown : ∀ operation, ¬IsNamed token operation) :
    ofNames (named ++ token :: more) = .error (.unknownName token) := by
  induction named with
  | nil => rw [List.nil_append, ofNames, ofName?_eq_none_iff.mpr hunknown]
  | cons first named ih =>
    obtain ⟨⟨operation, hfirst⟩, hnamed⟩ := List.forall_mem_cons.mp hnamed
    rw [List.cons_append, ofNames, ofName?_eq_some_iff.mpr hfirst, ih hnamed]
    rfl

theorem refuses_of_ofNames {tokens : List Bytes} {cause : ListError}
    (h : ofNames tokens = .error cause) : Refuses tokens cause := by
  induction tokens with
  | nil => cases h
  | cons token tokens ih =>
    rw [ofNames] at h
    cases hname : ofName? token with
    | none =>
      rw [hname] at h
      cases h
      exact @Refuses.unknownName [] tokens token (List.forall_mem_nil _)
        (ofName?_eq_none_iff.mp hname)
    | some operation =>
      rw [hname] at h
      cases htokens : ofNames tokens with
      | ok operations => rw [htokens] at h; cases h
      | error other =>
        rw [htokens] at h
        cases h
        cases ih htokens with
        | noName => cases htokens
        | @unknownName named more token hnamed hunknown =>
          have hfirst := ofName?_eq_some_iff.mp hname
          exact @Refuses.unknownName (_ :: named) more token
            (List.forall_mem_cons.mpr ⟨⟨operation, hfirst⟩, hnamed⟩) hunknown

variable {text : Bytes} {tokens : List Bytes}

theorem parseList_eq_ok_iff (h : Tokens tokens text) {operations : List Operation} :
    parseList text = .ok operations ↔ tokens ≠ [] ∧ List.Forall₂ IsNamed tokens operations := by
  rw [parseList, h.words_eq]
  cases tokens with
  | nil => simp
  | cons token tokens => simp [ofNames_eq_ok_iff]

theorem parseList_eq_error_iff (h : Tokens tokens text) {cause : ListError} :
    parseList text = .error cause ↔ Refuses tokens cause := by
  rw [parseList, h.words_eq]
  constructor
  · intro hread
    cases tokens with
    | nil => cases hread; exact .noName
    | cons token tokens => exact refuses_of_ofNames hread
  · intro hrefuses
    cases hrefuses with
    | noName => rfl
    | @unknownName named more token hnamed hunknown =>
      have hread : ofNames (named ++ token :: more) = _ := ofNames_unknownName hnamed hunknown
      cases named <;> exact hread

theorem isNamed_name (operation : Operation) : IsNamed operation.name operation :=
  isNamed_iff.mpr (upper_name operation)

theorem name_ne_nil (operation : Operation) : operation.name ≠ [] := by
  cases operation <;> decide

theorem not_mem_separators_of_name (operation : Operation) :
    ∀ b ∈ operation.name, b ∉ separators := by
  cases operation <;> decide +kernel

theorem listText_singleton (operation : Operation) : listText [operation] = operation.name :=
  List.append_nil _

theorem listText_cons (operation next : Operation) (operations : List Operation) :
    listText (operation :: next :: operations) =
      operation.name ++ 44 :: listText (next :: operations) := by
  rw [listText, List.map_cons, List.map_cons, List.intercalate_cons_cons, List.append_assoc]
  rfl

/-- The tokens of a list that was printed are the names in it. -/
theorem tokens_listText (operations : List Operation) :
    Tokens (operations.map name) (listText operations) := by
  induction operations with
  | nil => exact .nothing
  | cons operation operations ih =>
    have hne := name_ne_nil operation
    have hplain := not_mem_separators_of_name operation
    cases operations with
    | nil =>
      have halone := Tokens.token hne hplain (fun b hb => by cases hb) .nothing
      rw [listText_singleton]
      rwa [List.append_nil] at halone
    | cons next operations =>
      have hcomma : (44 : UInt8) ∈ separators := by decide
      rw [listText_cons]
      exact .token hne hplain (fun b hb => by cases hb; exact hcomma) (.separator hcomma ih)

theorem parseList_listText {operations : List Operation} (h : operations ≠ []) :
    parseList (listText operations) = .ok operations := by
  refine (parseList_eq_ok_iff (tokens_listText operations)).mpr ⟨?_, ?_⟩
  · exact mt List.map_eq_nil_iff.mp h
  · rw [List.forall₂_map_left_iff, List.forall₂_same]
    exact fun operation _ => isNamed_name operation

/-- Reads a list into the place that is handed over. -/
def readList (text : Bytes) : EStateM ListError (List Operation) Unit :=
  InPlace.names [] (Bytes.words isSeparator text)

/-- The place holds what was read, or what it held before. -/
theorem readList_eq (text : Bytes) (place : List Operation) :
    readList text place = match parseList text with
      | .ok operations => .ok () operations
      | .error cause => .error cause place := by
  rw [readList, InPlace.operationList_yields]
  cases parseList text <;> rfl

theorem exists_forall₂_isNamed {tokens : List Bytes} :
    (∃ operations, List.Forall₂ IsNamed tokens operations) ↔
      ∀ token ∈ tokens, ∃ operation, IsNamed token operation := by
  induction tokens with
  | nil => exact ⟨fun _ => List.forall_mem_nil _, fun _ => ⟨[], .nil⟩⟩
  | cons token tokens ih =>
    rw [List.forall_mem_cons, ← ih]
    simp only [List.forall₂_cons_left_iff]
    constructor
    · rintro ⟨_, operation, operations, hfirst, hmore, rfl⟩
      exact ⟨⟨operation, hfirst⟩, operations, hmore⟩
    · rintro ⟨⟨operation, hfirst⟩, operations, hmore⟩
      exact ⟨_, operation, operations, hfirst, hmore, rfl⟩

/-- A text is made of tokens in one way, and the list is accepted exactly if there are tokens and all of them
are names. Then it is the operations of the tokens in order, and stays the same when it is printed and read
again. Otherwise the complaint is of the first token that is no name, or of the lack of tokens, and the place
where the list was to be put holds what it held. Every list with something in it can be printed and read
back. -/
theorem parseList_exact :
    (∀ text, ∃ tokens, (∀ others, Tokens others text ↔ others = tokens) ∧
      ((∃ operations, parseList text = .ok operations) ↔
        tokens ≠ [] ∧ ∀ token ∈ tokens, ∃ operation, IsNamed token operation) ∧
      (∀ operations, parseList text = .ok operations →
        List.Forall₂ IsNamed tokens operations ∧
        (∀ place, readList text place = .ok () operations) ∧
        parseList (listText operations) = .ok operations) ∧
      ∀ cause, parseList text = .error cause →
        Refuses tokens cause ∧ ∀ place, readList text place = .error cause place) ∧
    (∀ operations, operations ≠ [] → parseList (listText operations) = .ok operations) ∧
    ListError.noName.message = utf8 "operation list is empty" ∧
    ∀ token, (ListError.unknownName token).message =
      utf8 "unknown operation '" ++ token ++ utf8 "' (expected PING, SET, GET or DEL)" := by
  refine ⟨fun text => ?_, fun operations => parseList_listText, rfl, fun _ => rfl⟩
  obtain ⟨tokens, htokens⟩ := exists_tokens text
  refine ⟨tokens, fun others => ?_, ?_, fun operations hread => ?_, fun cause hread => ?_⟩
  · rw [tokens_iff, htokens.words_eq, eq_comm]
  · simp only [parseList_eq_ok_iff htokens, exists_and_left, exists_forall₂_isNamed]
  · obtain ⟨hne, hnamed⟩ := (parseList_eq_ok_iff htokens).mp hread
    refine ⟨hnamed, fun place => by rw [readList_eq, hread], parseList_listText ?_⟩
    rintro rfl
    exact hne (List.forall₂_nil_right_iff.mp hnamed)
  · exact ⟨(parseList_eq_error_iff htokens).mp hread, fun place => by rw [readList_eq, hread]⟩

/-- Separators of any kind and number, letters of either case, and a repetition. A complaint is of the first of
two tokens that are no names, and the place keeps its list. -/
theorem parseList_exact_mixed_case :
    let text := utf8 ",ping\tSeT,, PING\n"
    let operations : List Operation := [.ping, .set, .ping]
    Tokens [utf8 "ping", utf8 "SeT", utf8 "PING"] text ∧
      readList text [.get] = .ok () operations ∧ listText operations = utf8 "PING,SET,PING" ∧
      parseList (utf8 "PING,SET,PING") = .ok operations ∧
      readList (utf8 "get,zap foo") [.get] = .error (.unknownName (utf8 "zap")) [.get] := by
  intro text operations
  have hread : parseList text = .ok operations := by decide
  have hwrong : parseList (utf8 "get,zap foo") = .error (.unknownName (utf8 "zap")) := by decide
  obtain ⟨hall, hprinted, -⟩ := parseList_exact
  obtain ⟨tokens, -, -, haccepted, -⟩ := hall text
  obtain ⟨-, hplace, -⟩ := haccepted operations hread
  obtain ⟨refused, -, -, -, hrefused⟩ := hall (utf8 "get,zap foo")
  exact ⟨by decide, hplace [.get], by decide, hprinted operations (List.cons_ne_nil _ _),
    (hrefused _ hwrong).2 [.get]⟩

end Operation

end RespLoad
