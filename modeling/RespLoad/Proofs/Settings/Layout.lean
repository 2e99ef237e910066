import Mathlib.Data.List.Forall2
import Mathlib.Data.List.ReduceOption
import Mathlib.Data.List.TakeWhile
import RespLoad.Proofs.Settings.Fields
import RespLoad.Settings.File

/-!
# The layout of configuration files

How a list of directives may be written as a file: one directive on a line, with blanks before, between
and behind its two words and a comment at the end, and lines in between that hold no directive. A file
does what its directives do one after the other, however it is laid out, and the number in a complaint is
that of the line.
-/
namespace RespLoad

namespace Bytes

/-- No blank stands at either end. -/
structure IsTrimmed (s : Bytes) : Prop where
  first : ∀ b, s.head? = some b → isBlank b = false
  last : ∀ b, s.getLast? = some b → isBlank b = false

theorem IsTrimmed.append {a b : Bytes} (ha : IsTrimmed a) (hb : IsTrimmed b) (hna : a ≠ [])
    (hnb : b ≠ []) (middle : Bytes) : IsTrimmed (a ++ middle ++ b) := by
  constructor
  · rw [List.append_assoc, List.head?_append_of_ne_nil _ hna]
    exact ha.first
  · rw [List.getLast?_append_of_ne_nil _ hnb]
    exact hb.last

theorem dropTail_append {p : UInt8 → Bool} {tail : Bytes} (h : ∀ b ∈ tail, p b = true) (s : Bytes) :
    dropTail p (s ++ tail) = dropTail p s := by
  rw [dropTail, dropTail, List.reverse_append,
    List.dropWhile_append_of_pos fun b hb => h b (List.mem_reverse.mp hb)]

theorem dropWhile_of_head {p : UInt8 → Bool} {s : Bytes} (h : ∀ b, s.head? = some b → p b = false) :
    s.dropWhile p = s := by
  cases s with
  | nil => rfl
  | cons b rest => exact List.dropWhile_cons_of_neg (Bool.eq_false_iff.mp (h b rfl))

theorem trim_eq_nil {s : Bytes} (h : ∀ b ∈ s, isBlank b = true) : trim s = [] := by
  rw [trim, trimStart, List.dropWhile_eq_nil_iff.mpr h]
  rfl

/-- Blanks around a text that has none at its ends are all that is dropped. -/
theorem trim_padded {lead core tail : Bytes} (hlead : ∀ b ∈ lead, isBlank b = true)
    (htail : ∀ b ∈ tail, isBlank b = true) (h : IsTrimmed core) :
    trim (lead ++ core ++ tail) = core := by
  cases core with
  | nil =>
    rw [List.append_nil]
    exact trim_eq_nil (List.forall_mem_append.mpr ⟨hlead, htail⟩)
  | cons b rest =>
    have hstart : trimStart (lead ++ (b :: rest) ++ tail) = b :: rest ++ tail := by
      rw [trimStart, List.append_assoc, List.dropWhile_append_of_pos hlead]
      exact dropWhile_of_head h.first
    rw [trim, hstart, dropTail_append htail, dropTail,
      dropWhile_of_head (by rw [List.head?_reverse]; exact h.last), List.reverse_reverse]

/-- Every text is a run of bytes of one kind, and a rest that does not begin with such a byte. -/
theorem exists_run (p : UInt8 → Bool) (s : Bytes) : ∃ front back, s = front ++ back ∧
    (∀ b ∈ front, p b = true) ∧ ∀ b, back.head? = some b → p b = false := by
  refine ⟨s.takeWhile p, s.dropWhile p, List.takeWhile_append_dropWhile.symm,
    fun _ => List.mem_takeWhile_imp, fun b hb => ?_⟩
  have hhead := List.head?_dropWhile_not p s
  rwa [hb] at hhead

theorem exists_tail (s : Bytes) : ∃ core tail, s = core ++ tail ∧ (∀ b ∈ tail, isBlank b = true) ∧
    ∀ b, core.getLast? = some b → isBlank b = false := by
  obtain ⟨tail, core, hs, htail, hcore⟩ := exists_run isBlank s.reverse
  refine ⟨core.reverse, tail.reverse, ?_, fun b hb => htail b (List.mem_reverse.mp hb), ?_⟩
  · rw [← List.reverse_append, ← hs, List.reverse_reverse]
  · rwa [List.getLast?_reverse]

/-- Every text is one without blanks at its ends, and blanks around it. -/
theorem exists_trimmed (s : Bytes) : ∃ lead core tail, s = lead ++ core ++ tail ∧
    (∀ b ∈ lead, isBlank b = true) ∧ (∀ b ∈ tail, isBlank b = true) ∧ IsTrimmed core := by
  obtain ⟨lead, rest, rfl, hlead, hfirst⟩ := exists_run isBlank s
  obtain ⟨core, tail, rfl, htail, hlast⟩ := exists_tail rest
  refine ⟨lead, core, tail, (List.append_assoc _ _ _).symm, hlead, htail, fun b hb => ?_, hlast⟩
  exact hfirst b (by rw [List.head?_append, hb]; rfl)

/-- A text without blanks at its ends is one word, or a word, blanks and such a text again. -/
theorem IsTrimmed.exists_word {s : Bytes} (h : IsTrimmed s) (hne : s ≠ []) :
    ∃ word, word ≠ [] ∧ (∀ b ∈ word, isBlank b = false) ∧ (s = word ∨ ∃ gap text,
      s = word ++ gap ++ text ∧ gap ≠ [] ∧ (∀ b ∈ gap, isBlank b = true) ∧ text ≠ [] ∧
      IsTrimmed text) := by
  obtain ⟨word, more, rfl, hword, hmore⟩ := exists_run (!isBlank ·) s
  obtain ⟨gap, text, rfl, hgap, htext⟩ := exists_run isBlank more
  have hplain : ∀ b ∈ word, isBlank b = false := fun b hb => Bool.not_eq_true' _ |>.mp (hword b hb)
  have hstop : ∀ b, (gap ++ text).head? = some b → isBlank b = true :=
    fun b hb => Bool.not_eq_false' .. |>.mp (hmore b hb)
  have hfirst : word ≠ [] := by
    rintro rfl
    obtain ⟨b, rest, hb⟩ := List.exists_cons_of_ne_nil hne
    rw [List.nil_append] at hb h
    have hblank := hstop b (by rw [hb]; rfl)
    rw [h.first b (by rw [hb]; rfl)] at hblank
    cases hblank
  refine ⟨word, hfirst, hplain, ?_⟩
  cases gap with
  | nil =>
    cases text with
    | nil => exact Or.inl (List.append_nil word)
    | cons b text =>
      have hblank := hstop b rfl
      rw [htext b rfl] at hblank
      cases hblank
  | cons b gap =>
    rw [← List.append_assoc] at h
    -- If blanks came last, the text would end in one.
    have hrest : text ≠ [] := by
      rintro rfl
      have hlast := List.getLast?_eq_some_getLast (List.cons_ne_nil b gap)
      have hblank := h.last _ (by rw [List.append_nil, List.getLast?_append, hlast]; rfl)
      rw [hgap _ (List.mem_of_getLast? hlast)] at hblank
      cases hblank
    refine Or.inr ⟨b :: gap, text, (List.append_assoc ..).symm, List.cons_ne_nil b gap, hgap, hrest,
      htext, ?_⟩
    rw [← List.getLast?_append_of_ne_nil _ hrest]
    exact h.last

theorem lines_append_lf {line : Bytes} (h : lf ∉ line) (rest : Bytes) :
    lines (line ++ lf :: rest) = line :: lines rest := by
  induction line with
  | nil => rw [List.nil_append, lines, if_pos rfl]
  | cons b line ih =>
    rw [List.mem_cons, not_or] at h
    obtain ⟨hb, hline⟩ := h
    rw [List.cons_append, lines, if_neg (Ne.symm hb), ih hline]

theorem lines_of_not_mem {line : Bytes} (h : lf ∉ line) :
    lines line = if line = [] then [] else [line] := by
  induction line with
  | nil => rfl
  | cons b line ih =>
    rw [List.mem_cons, not_or] at h
    obtain ⟨hb, hline⟩ := h
    rw [lines, if_neg (Ne.symm hb), ih hline, if_neg (List.cons_ne_nil b line)]
    cases line <;> rfl

end Bytes

namespace ConfigFile

open Bytes

/-- Blanks that do not end the line. -/
def IsSpacing (s : Bytes) : Prop := ∀ b ∈ s, isBlank b = true ∧ b ≠ lf

/-- A word that a directive can have as its key in a file. -/
structure IsKey (key : Bytes) : Prop where
  nonempty : key ≠ []
  plain : ∀ b ∈ key, isBlank b = false ∧ b ≠ commentMark

/-- A text that a directive can have as its value in a file. -/
structure IsValue (value : Bytes) : Prop where
  nonempty : value ≠ []
  plain : ∀ b ∈ value, b ≠ lf ∧ b ≠ commentMark
  trimmed : IsTrimmed value

/-- A comment up to the end of the line, if there is one. -/
inductive IsComment : Bytes → Prop
  | absent : IsComment []
  | present {text : Bytes} (h : lf ∉ text) : IsComment (commentMark :: text)

/-- How a line is written, and the directive that it holds, if it holds one. -/
inductive Line : Option Directive → Bytes → Prop
  | directive {lead key gap value tail comment : Bytes} (hlead : IsSpacing lead) (hkey : IsKey key)
      (hgap : IsSpacing gap) (hne : gap ≠ []) (hvalue : IsValue value) (htail : IsSpacing tail)
      (hcomment : IsComment comment) :
      Line (some ⟨key, value⟩) (lead ++ (key ++ gap ++ value) ++ tail ++ comment)
  | keyOnly {lead key tail comment : Bytes} (hlead : IsSpacing lead) (hkey : IsKey key)
      (htail : IsSpacing tail) (hcomment : IsComment comment) :
      Line none (lead ++ key ++ tail ++ comment)
  | blank {lead comment : Bytes} (hlead : IsSpacing lead) (hcomment : IsComment comment) :
      Line none (lead ++ comment)

/-- How a file is written, and what its lines hold. The last line may be ended or not. -/
def Written (entries : List (Option Directive)) (content : Bytes) : Prop :=
  ∃ texts, List.Forall₂ Line entries texts ∧
    (content = texts.flatMap (· ++ [lf]) ∨ content = [lf].intercalate texts)

theorem IsSpacing.isBlank {s : Bytes} (h : IsSpacing s) : ∀ b ∈ s, Bytes.isBlank b = true :=
  fun b hb => (h b hb).1

theorem IsKey.isTrimmed {key : Bytes} (h : IsKey key) : IsTrimmed key where
  first := fun b hb => (h.plain b (List.mem_of_head? hb)).1
  last := fun b hb => (h.plain b (List.mem_of_getLast? hb)).1

/-- A byte that neither ends a line nor begins a comment. -/
def IsContent (b : UInt8) : Prop := b ≠ lf ∧ b ≠ commentMark

theorem ne_of_isBlank {b other : UInt8} (hb : Bytes.isBlank b = true)
    (ho : Bytes.isBlank other = false) : b ≠ other := by
  rintro rfl
  rw [hb] at ho
  cases ho

theorem IsSpacing.isContent {s : Bytes} (h : IsSpacing s) : ∀ b ∈ s, IsContent b :=
  fun b hb => ⟨(h b hb).2, ne_of_isBlank (h b hb).1 (by decide)⟩

theorem IsKey.isContent {key : Bytes} (h : IsKey key) : ∀ b ∈ key, IsContent b :=
  fun b hb => ⟨(ne_of_isBlank (by decide) (h.plain b hb).1).symm, (h.plain b hb).2⟩

/-- A comment is cut off, and a line with a comment has no line end in it. -/
theorem IsComment.cut {body comment : Bytes} (h : IsComment comment) (hb : ∀ b ∈ body, IsContent b) :
    (body ++ comment).takeWhile (· != commentMark) = body ∧ lf ∉ body ++ comment := by
  have hbody : lf ∉ body := fun hm => (hb lf hm).1 rfl
  constructor
  · rw [List.takeWhile_append_of_pos fun b hm => bne_iff_ne.mpr (hb b hm).2]
    cases h with
    | absent => exact List.append_nil body
    | present _ => exact List.append_nil body
  · rw [List.mem_append, not_or]
    refine ⟨hbody, ?_⟩
    cases h with
    | absent => exact List.not_mem_nil
    | present ht => exact fun hm => (List.mem_cons.mp hm).elim (by decide) ht

/-- The directive of a line without its comment. -/
theorem directive?_of_trimmed {line content key rest : Bytes}
    (hcontent : Bytes.trim (line.takeWhile (· != commentMark)) = content)
    (hkey : ∀ b ∈ key, isBlank b = false) (hrest : ∀ b, rest.head? = some b → isBlank b = true)
    (hsplit : content = key ++ rest) :
    directive? line = if (Bytes.trim rest).isEmpty then none else some ⟨key, Bytes.trim rest⟩ := by
  have hword : ∀ b ∈ key, (!isBlank b) = true := fun b hb => by rw [hkey b hb]; rfl
  have hstop : rest.takeWhile (!isBlank ·) = [] ∧ rest.dropWhile (!isBlank ·) = rest := by
    cases rest with
    | nil => exact ⟨rfl, rfl⟩
    | cons b rest =>
      have hblank : ¬(!isBlank b) = true := by rw [hrest b rfl]; exact Bool.false_ne_true
      exact ⟨List.takeWhile_cons_of_neg hblank, List.dropWhile_cons_of_neg hblank⟩
  simp only [directive?, hcontent, hsplit, List.takeWhile_append_of_pos hword,
    List.dropWhile_append_of_pos hword, hstop, List.append_nil]

/-- A line is read as it is written. -/
theorem Line.directive?_eq {entry : Option Directive} {text : Bytes} (h : Line entry text) :
    directive? text = entry ∧ lf ∉ text := by
  cases h with
  | @directive lead key gap value tail comment hlead hkey hgap hne hvalue htail hcomment =>
    have hcore : IsTrimmed (key ++ gap ++ value) :=
      hkey.isTrimmed.append hvalue.trimmed hkey.nonempty hvalue.nonempty gap
    have hcontent : ∀ b ∈ lead ++ (key ++ gap ++ value) ++ tail, IsContent b := by
      simp only [List.forall_mem_append]
      exact ⟨⟨hlead.isContent, ⟨hkey.isContent, hgap.isContent⟩, hvalue.plain⟩, htail.isContent⟩
    obtain ⟨hcut, hline⟩ := hcomment.cut hcontent
    have htrim := (congrArg Bytes.trim hcut).trans (trim_padded hlead.isBlank htail.isBlank hcore)
    have hvalued := trim_padded hgap.isBlank (List.forall_mem_nil _) hvalue.trimmed
    rw [List.append_nil] at hvalued
    have hblank : ∀ b, (gap ++ value).head? = some b → Bytes.isBlank b = true := by
      rw [List.head?_append_of_ne_nil _ hne]
      exact fun b hb => hgap.isBlank b (List.mem_of_head? hb)
    refine ⟨?_, hline⟩
    rw [directive?_of_trimmed htrim (fun b hb => (hkey.plain b hb).1) hblank
      (List.append_assoc _ _ _), hvalued, if_neg (mt List.isEmpty_iff.mp hvalue.nonempty)]
  | @keyOnly lead key tail comment hlead hkey htail hcomment =>
    have hcontent : ∀ b ∈ lead ++ key ++ tail, IsContent b := by
      simp only [List.forall_mem_append]
      exact ⟨⟨hlead.isContent, hkey.isContent⟩, htail.isContent⟩
    obtain ⟨hcut, hline⟩ := hcomment.cut hcontent
    have htrim := (congrArg Bytes.trim hcut).trans
      (trim_padded hlead.isBlank htail.isBlank hkey.isTrimmed)
    refine ⟨?_, hline⟩
    rw [directive?_of_trimmed htrim (fun b hb => (hkey.plain b hb).1) (fun b hb => by cases hb)
      (List.append_nil key).symm]
    rfl
  | @blank lead comment hlead hcomment =>
    obtain ⟨hcut, hline⟩ := hcomment.cut hlead.isContent
    refine ⟨?_, hline⟩
    have htrim := (congrArg Bytes.trim hcut).trans (trim_eq_nil hlead.isBlank)
    rw [directive?_of_trimmed htrim (List.forall_mem_nil _)
      (fun b hb => by cases hb) (List.append_nil []).symm]
    rfl

/-- Every line is its content and a comment. -/
theorem exists_comment {text : Bytes} (h : lf ∉ text) : ∃ body comment, text = body ++ comment ∧
    (∀ b ∈ body, IsContent b) ∧ IsComment comment := by
  obtain ⟨body, rest, rfl, hbody, hrest⟩ := exists_run (· != commentMark) text
  rw [List.mem_append, not_or] at h
  obtain ⟨hlf, hmore⟩ := h
  refine ⟨body, rest, rfl, fun b hb => ⟨fun he => hlf (he ▸ hb), bne_iff_ne.mp (hbody b hb)⟩, ?_⟩
  cases rest with
  | nil => exact .absent
  | cons b rest =>
    obtain rfl : b = commentMark := bne_eq_false_iff_eq.mp (hrest b rfl)
    exact .present fun hm => hmore (List.mem_cons_of_mem _ hm)

theorem isSpacing_of_isBlank {s : Bytes} (h : ∀ b ∈ s, Bytes.isBlank b = true)
    (hs : ∀ b ∈ s, IsContent b) : IsSpacing s :=
  fun b hb => ⟨h b hb, (hs b hb).1⟩

/-- Whatever stands in a line, it is written in one of these ways. -/
theorem exists_line {text : Bytes} (h : lf ∉ text) : ∃ entry, Line entry text := by
  obtain ⟨body, comment, rfl, hbody, hcomment⟩ := exists_comment h
  obtain ⟨lead, core, tail, rfl, hlead, htail, hcore⟩ := exists_trimmed body
  simp only [List.forall_mem_append] at hbody
  obtain ⟨⟨hleading, hwords⟩, htailing⟩ := hbody
  replace hlead := isSpacing_of_isBlank hlead hleading
  replace htail := isSpacing_of_isBlank htail htailing
  rcases eq_or_ne core [] with rfl | hne
  · rw [List.append_nil]
    exact ⟨none, .blank (List.forall_mem_append.mpr ⟨hlead, htail⟩) hcomment⟩
  obtain ⟨key, hkey, hplain, rfl | ⟨gap, value, rfl, hgap, hblank, hvalue, htrimmed⟩⟩ :=
    hcore.exists_word hne
  · exact ⟨none, .keyOnly hlead ⟨hkey, fun b hb => ⟨hplain b hb, (hwords b hb).2⟩⟩ htail hcomment⟩
  · simp only [List.forall_mem_append] at hwords
    obtain ⟨⟨hkeyed, hspaced⟩, hvalued⟩ := hwords
    exact ⟨some ⟨key, value⟩, .directive hlead ⟨hkey, fun b hb => ⟨hplain b hb, (hkeyed b hb).2⟩⟩
      (isSpacing_of_isBlank hblank hspaced) hgap ⟨hvalue, hvalued, htrimmed⟩ htail hcomment⟩

/-- The layouts of lines are those that the reader understands so. -/
theorem line_iff {entry : Option Directive} {text : Bytes} :
    Line entry text ↔ directive? text = entry ∧ lf ∉ text := by
  refine ⟨Line.directive?_eq, ?_⟩
  rintro ⟨rfl, hlf⟩
  obtain ⟨entry, hline⟩ := exists_line hlf
  rwa [hline.directive?_eq.1]

instance (entry : Option Directive) (text : Bytes) : Decidable (Line entry text) :=
  decidable_of_iff _ line_iff.symm

theorem exists_texts (content : Bytes) : ∃ first more,
    content = [lf].intercalate (first :: more) ∧ ∀ text ∈ first :: more, lf ∉ text := by
  induction content with
  | nil => exact ⟨[], [], rfl, List.forall_mem_singleton.mpr List.not_mem_nil⟩
  | cons b content ih =>
    obtain ⟨first, more, rfl, htexts⟩ := ih
    by_cases hb : b = lf
    · subst hb
      refine ⟨[], first :: more, ?_, List.forall_mem_cons.mpr ⟨List.not_mem_nil, htexts⟩⟩
      rw [List.intercalate_cons_cons]
      rfl
    · obtain ⟨hfirst, hmore⟩ := List.forall_mem_cons.mp htexts
      refine ⟨b :: first, more, ?_, List.forall_mem_cons.mpr ⟨?_, hmore⟩⟩
      · cases more with
        | nil => rw [List.intercalate_singleton, List.intercalate_singleton]
        | cons next more =>
          rw [List.intercalate_cons_cons, List.intercalate_cons_cons]
          rfl
      · exact fun hm => (List.mem_cons.mp hm).elim (fun he => hb he.symm) hfirst

/-- No file falls outside the layouts. -/
theorem exists_written (content : Bytes) : ∃ entries, Written entries content := by
  obtain ⟨first, more, rfl, htexts⟩ := exists_texts content
  suffices h : ∃ entries, List.Forall₂ Line entries (first :: more) by
    obtain ⟨entries, hentries⟩ := h
    exact ⟨entries, first :: more, hentries, Or.inr rfl⟩
  generalize first :: more = texts at htexts
  induction texts with
  | nil => exact ⟨[], .nil⟩
  | cons text texts ih =>
    obtain ⟨htext, hmore⟩ := List.forall_mem_cons.mp htexts
    obtain ⟨entry, hentry⟩ := exists_line htext
    obtain ⟨entries, hentries⟩ := ih hmore
    exact ⟨entry :: entries, .cons hentry hentries⟩

theorem numbered_append_nothing (counter : Int32) (entries : List (Option Directive)) :
    numbered counter (entries ++ [none]) = numbered counter entries := by
  induction entries generalizing counter with
  | nil => rfl
  | cons entry entries ih =>
    cases entry with
    | none => exact ih _
    | some own => exact congrArg (_ :: ·) (ih _)

/-- The lines of a file hold what was written there, whether its last line is ended or not. -/
theorem Written.numbered_eq {entries : List (Option Directive)} {content : Bytes}
    (h : Written entries content) (counter : Int32) :
    numbered counter ((lines content).map directive?) = numbered counter entries := by
  obtain ⟨texts, htexts, rfl | rfl⟩ := h
  · have hall : (lines (texts.flatMap (· ++ [lf]))).map directive? = entries := by
      induction htexts with
      | nil => rfl
      | @cons entry text entries texts hline _ ih =>
        obtain ⟨hentry, hlf⟩ := hline.directive?_eq
        rw [List.flatMap_cons, List.append_assoc, List.singleton_append, lines_append_lf hlf,
          List.map_cons, ih, hentry]
    rw [hall]
  · -- A last line that is empty is no line of the file any more, but it holds no directive either.
    have hall : (lines ([lf].intercalate texts)).map directive? = entries ∨
        entries = (lines ([lf].intercalate texts)).map directive? ++ [none] := by
      induction htexts with
      | nil => exact Or.inl rfl
      | @cons entry text entries texts hline hmore ih =>
        obtain ⟨hentry, hlf⟩ := hline.directive?_eq
        cases hmore with
        | nil =>
          rw [List.intercalate_singleton, lines_of_not_mem hlf]
          split
          · rename_i hempty
            subst hempty
            exact Or.inr (congrArg ([·]) hentry.symm)
          · exact Or.inl (congrArg ([·]) hentry)
        | cons hnext hmore =>
          rw [List.intercalate_cons_cons, List.append_assoc, List.singleton_append,
            lines_append_lf hlf, List.map_cons, hentry, List.cons_append]
          exact ih.imp (congrArg (entry :: ·)) (congrArg (entry :: ·))
    rcases hall with hall | hall
    · rw [hall]
    · rw [hall, numbered_append_nothing]

end ConfigFile

namespace Settings

/-- One line more in front is one step more of the counter. -/
theorem counter_cons (counter : Int32) (count : Nat) :
    counter + 1 + Int32.ofNat count = counter + Int32.ofNat (count + 1) := by
  rw [Int32.add_assoc, Nat.add_comm count, Int32.ofNat_add]
  rfl

/-- Lines are applied in order, up to the first with a directive that is refused. -/
theorem applyEach_numbered (settings : Settings) (counter : Int32)
    (entries : List (Option Directive)) :
    (∃ after, entries.reduceOption.foldlM apply settings = .ok after ∧
      settings.applyEach (ConfigFile.numbered counter entries) = (after, none)) ∨
    ∃ front directive back reached cause, entries = front ++ some directive :: back ∧
      front.reduceOption.foldlM apply settings = .ok reached ∧
      reached.apply directive = .error cause ∧
      settings.applyEach (ConfigFile.numbered counter entries) =
        (reached, some ⟨counter + Int32.ofNat (front.length + 1), cause⟩) := by
  induction entries generalizing settings counter with
  | nil => exact Or.inl ⟨settings, rfl, rfl⟩
  | cons entry entries ih =>
    cases entry with
    | none =>
      rcases ih settings (counter + 1) with hall | ⟨front, directive, back, reached, cause, rfl, h⟩
      · exact Or.inl hall
      · refine Or.inr ⟨none :: front, directive, back, reached, cause, rfl, ?_⟩
        rw [List.length_cons, ← counter_cons]
        exact h
    | some own =>
      rw [ConfigFile.numbered, applyEach, List.reduceOption_cons_of_some, List.foldlM_cons]
      cases ha : settings.apply own with
      | error cause =>
        exact Or.inr ⟨[], own, entries, settings, cause, rfl, rfl, ha, rfl⟩
      | ok next =>
        rcases ih next (counter + 1) with hall | ⟨front, directive, back, reached, cause, rfl, h⟩
        · exact Or.inl hall
        · refine Or.inr ⟨some own :: front, directive, back, reached, cause, rfl, ?_⟩
          rw [List.length_cons, ← counter_cons, List.reduceOption_cons_of_some, List.foldlM_cons, ha]
          exact h

end Settings

end RespLoad
