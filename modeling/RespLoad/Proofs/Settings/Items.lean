import Mathlib.Data.List.Induction
import RespLoad.Proofs.Settings.Fields
import RespLoad.Proofs.Settings.Flags
import RespLoad.Proofs.Settings.InPlace

/-!
# The grammar of command lines

What may stand behind the program's name, said without the reader: a sequence of items, each with its
words (`Item`). A value may look like a flag, so what a word is depends on all words in front of it. Words
can be cut into items in one way only, the reader accepts them exactly if they can be cut, and otherwise
it blames the first word behind the items. A loop that takes in one flag after another (`parseInto`) gives
the caller the same, and gives nothing if the words are refused.
-/
namespace RespLoad.CommandLine

/-- One item of a command line. -/
inductive Item where
  | help
  | shortHelp
  | strict
  /-- Ten of the keys take a value. -/
  | option (key : Key) (takesValue : key ≠ .strict) (value : Bytes)
  | config (path : Bytes)
  deriving DecidableEq

namespace Item

/-- The words of an item. -/
def words : Item → List Bytes
  | help => [utf8 "--help"]
  | shortHelp => [utf8 "-h"]
  | strict => [utf8 "--strict"]
  | option key _ value => [utf8 "--" ++ key.name, value]
  | config path => [utf8 "--config", path]

/-- The words of a sequence of items. -/
def join (items : List Item) : List Bytes := items.flatMap words

/-- The directive that an item asks for. -/
def override? : Item → Option Directive
  | strict => some ⟨utf8 "strict", utf8 "yes"⟩
  | option key _ value => some ⟨key.name, value⟩
  | help | shortHelp | config _ => none

/-- The flag that an item is read as. -/
def flag : Item → Flag
  | help | shortHelp => .help
  | strict => .strict
  | option key _ value => .option key value
  | config path => .config path

theorem join_cons (item : Item) (items : List Item) :
    join (item :: items) = item.words ++ join items := List.flatMap_cons

theorem directive?_flag (item : Item) : item.flag.directive? = item.override? := by
  cases item <;> rfl

theorem ofOption?_name {key : Key} (h : key ≠ .strict) :
    Flag.ofOption? (utf8 "--" ++ key.name) = .ok (.option key) := by
  have hname : (utf8 "--").isPrefixOf? (utf8 "--" ++ key.name) = some key.name :=
    List.isPrefixOf?_eq_some_iff_append_eq.mpr rfl
  have hconfig : key.name ≠ utf8 "config" := by cases key <;> decide
  rw [Flag.ofOption?, hname]
  simp only [if_neg hconfig, Key.ofName?_name]

/-- A word that announces a value begins an option or the path of a file. -/
theorem exists_of_ofOption? {word : Bytes} {make : Bytes → Flag} (h : Flag.ofOption? word = .ok make)
    (value : Bytes) : ∃ item : Item, item.words = [word, value] := by
  rw [Flag.ofOption?] at h
  split at h
  · cases h
  · rename_i name hname
    obtain rfl := List.isPrefixOf?_eq_some_iff_append_eq.mp hname
    split at h
    · rename_i hconfig
      cases h
      exact ⟨.config value, by rw [hconfig]; rfl⟩
    · split at h
      · cases h
      · cases h
      · rename_i key hkey hne
        cases h
        obtain rfl := Key.ofName?_eq_some_iff.mp hne
        exact ⟨.option key (fun he => hkey (he ▸ rfl)) value, rfl⟩

theorem ofWords_words_append (item : Item) (rest : List Bytes) :
    Flag.ofWords (item.words ++ rest) = (Flag.ofWords rest).map (item.flag :: ·) := by
  cases item with
  | help =>
    show Flag.ofWords (utf8 "--help" :: rest) = _
    rw [Flag.ofWords, if_pos (Or.inl rfl)]
    rfl
  | shortHelp =>
    show Flag.ofWords (utf8 "-h" :: rest) = _
    rw [Flag.ofWords, if_pos (Or.inr rfl)]
    rfl
  | strict =>
    show Flag.ofWords (utf8 "--strict" :: rest) = _
    rw [Flag.ofWords, if_neg (by decide), if_pos rfl]
    rfl
  | option key takesValue value =>
    have hhelp : ¬(utf8 "--" ++ key.name = utf8 "--help" ∨ utf8 "--" ++ key.name = utf8 "-h") := by
      cases key <;> decide
    have hstrict : utf8 "--" ++ key.name ≠ utf8 "--strict" := by
      cases key <;> first | exact absurd rfl takesValue | decide
    show Flag.ofWords ((utf8 "--" ++ key.name) :: value :: rest) = _
    rw [Flag.ofWords, if_neg hhelp, if_neg hstrict, ofOption?_name takesValue]
    rfl
  | config path => exact Flag.ofWords_config path rest

theorem ofWords_words (item : Item) : Flag.ofWords item.words = .ok [item.flag] := by
  rw [← List.append_nil item.words, ofWords_words_append]
  rfl

theorem ofWords_join (items : List Item) : Flag.ofWords (join items) = .ok (items.map flag) := by
  induction items with
  | nil => rfl
  | cons item items ih =>
    rw [join_cons, ofWords_words_append, ih]
    rfl

/-- How many words an item has that begins with this one. -/
def wordCount (first : Bytes) : Nat :=
  if first = utf8 "--help" ∨ first = utf8 "-h" ∨ first = utf8 "--strict" then 1 else 2

/-- The first word of an item tells where the item ends. -/
theorem exists_first (item : Item) :
    ∃ first more, item.words = first :: more ∧ item.words.length = wordCount first := by
  cases item with
  | option key takesValue value =>
    refine ⟨_, _, rfl, ?_⟩
    cases key <;> first | exact absurd rfl takesValue | rfl
  | _ => exact ⟨_, _, rfl, rfl⟩

theorem words_inj {a b : Item} (h : a.words = b.words) : a = b := by
  have hread := a.ofWords_words
  rw [h, b.ofWords_words] at hread
  have hflag : b.flag = a.flag := List.singleton_injective (Except.ok.inj hread)
  cases a <;> cases b <;> cases hflag <;> first | rfl | exact absurd h (by decide)

/-- No item begins with the words of another one. -/
theorem words_append_inj {a b : Item} {x y : List Bytes} (h : a.words ++ x = b.words ++ y) :
    a = b ∧ x = y := by
  obtain ⟨first, more, ha, hcount⟩ := a.exists_first
  obtain ⟨other, others, hb, hcount'⟩ := b.exists_first
  obtain rfl : first = other := by
    rw [ha, hb] at h
    exact (List.cons.inj h).1
  obtain ⟨hwords, hrest⟩ := List.append_inj h (hcount.trans hcount'.symm)
  exact ⟨words_inj hwords, hrest⟩

/-- No item begins what is left. -/
def Stuck (rest : List Bytes) : Prop := ∀ item : Item, ¬item.words <+: rest

theorem stuck_nil : Stuck [] := by
  intro item h
  obtain ⟨first, more, hwords, -⟩ := item.exists_first
  rw [hwords] at h
  exact List.cons_ne_nil first more (List.prefix_nil.mp h)

/-- Items that are followed by what begins no item hold all items that these words begin with. -/
theorem prefix_of_join_prefix {items other : List Item} {rest : List Bytes} (hrest : Stuck rest)
    (h : join other <+: join items ++ rest) : other <+: items := by
  induction other generalizing items with
  | nil => exact List.nil_prefix
  | cons item other ih =>
    obtain ⟨behind, hbehind⟩ := h
    rw [join_cons, List.append_assoc] at hbehind
    cases items with
    | nil => exact absurd ⟨_, hbehind⟩ (hrest item)
    | cons own items =>
      -- Both begin with the same words, so with the same item.
      rw [join_cons, List.append_assoc] at hbehind
      obtain ⟨rfl, hmore⟩ := words_append_inj hbehind
      exact List.prefix_cons_inj item |>.mpr (ih ⟨behind, hmore⟩)

theorem join_inj {items other : List Item} (h : join items = join other) : items = other := by
  have hfront : items <+: other := prefix_of_join_prefix stuck_nil ⟨[], by rw [h]⟩
  have hback : other <+: items := prefix_of_join_prefix stuck_nil ⟨[], by rw [h]⟩
  exact hfront.eq_of_length_le hback.length_le

/-- Why no item begins with a word and the words behind it, and the complaint that says so. -/
inductive Blames (word : Bytes) : List Bytes → Bytes → Prop
  | unexpected {rest : List Bytes} (hdashes : ¬utf8 "--" <+: word)
      (hfirst : ∀ (item : Item) (more : List Bytes), item.words ≠ word :: more) :
      Blames word rest (utf8 "unexpected argument: " ++ word)
  | unknown {rest : List Bytes} (hdashes : utf8 "--" <+: word)
      (hfirst : ∀ (item : Item) (more : List Bytes), item.words ≠ word :: more) :
      Blames word rest (utf8 "unknown option: " ++ word)
  | missing {item : Item} {value : Bytes} (h : item.words = [word, value]) :
      Blames word [] (utf8 "missing value for " ++ word)

theorem Blames.stuck {word text : Bytes} {rest : List Bytes} (h : Blames word rest text) :
    Stuck (word :: rest) := by
  intro item hitem
  obtain ⟨first, more, hwords, hcount⟩ := item.exists_first
  rw [hwords, List.cons_prefix_cons] at hitem
  obtain ⟨rfl, hmore⟩ := hitem
  cases h with
  | unexpected _ hfirst => exact hfirst item more hwords
  | unknown _ hfirst => exact hfirst item more hwords
  | @missing other value hother =>
    obtain rfl := List.prefix_nil.mp hmore
    obtain ⟨first', more', hwords', hcount'⟩ := other.exists_first
    rw [hother] at hwords' hcount'
    obtain ⟨rfl, -⟩ := List.cons.inj hwords'
    rw [hwords, ← hcount'] at hcount
    cases hcount

/-- A word that announces no value begins no item, apart from those that stand alone. -/
theorem blames_of_ofOption? {word : Bytes} {cause : CommandLineError} {rest : List Bytes}
    (hhelp : ¬(word = utf8 "--help" ∨ word = utf8 "-h")) (hstrict : word ≠ utf8 "--strict")
    (h : Flag.ofOption? word = .error cause) : Blames word rest cause.message := by
  have hfirst : ∀ (item : Item) (more : List Bytes), item.words ≠ word :: more := by
    intro item more hwords
    have hread := item.ofWords_words
    rw [hwords, Flag.ofWords, if_neg hhelp, if_neg hstrict, h] at hread
    cases hread
  rw [Flag.ofOption?] at h
  split at h
  · rename_i hnone
    cases h
    refine .unexpected ?_ hfirst
    rintro ⟨name, rfl⟩
    rw [List.isPrefixOf?_eq_some_iff_append_eq.mpr rfl] at hnone
    cases hnone
  · rename_i name hname
    have hdashes : utf8 "--" <+: word := ⟨name, List.isPrefixOf?_eq_some_iff_append_eq.mp hname⟩
    split at h
    · cases h
    · split at h
      · cases h
        exact .unknown hdashes hfirst
      · cases h
        exact .unknown hdashes hfirst
      · cases h

/-- How words may be cut: into items, or into items and a word that is to blame. -/
inductive Cut (argv : List Bytes) : Prop
  | complete (items : List Item) (h : join items = argv)
  | blamed (items : List Item) (word : Bytes) (rest : List Bytes) (cause : CommandLineError)
      (hsplit : argv = join items ++ word :: rest) (hread : Flag.ofWords argv = .error cause)
      (hblames : Blames word rest cause.message)

theorem Cut.append {rest : List Bytes} (h : Cut rest) (item : Item) : Cut (item.words ++ rest) := by
  cases h with
  | complete items hitems => exact .complete (item :: items) (by rw [join_cons, hitems])
  | blamed items word back cause hsplit hread hblames =>
    refine .blamed (item :: items) word back cause ?_ ?_ hblames
    · rw [join_cons, List.append_assoc, hsplit]
    · rw [ofWords_words_append, hread]
      rfl

theorem cut (argv : List Bytes) : Cut argv := by
  induction argv using Flag.ofWords.induct with
  | case1 => exact .complete [] rfl
  | case2 word rest hhelp ih =>
    rcases hhelp with rfl | rfl
    · exact ih.append .help
    · exact ih.append .shortHelp
  | case3 rest hhelp ih => exact ih.append .strict
  | case4 word rest hhelp hstrict cause hcause =>
    refine .blamed [] word rest cause rfl ?_ (blames_of_ofOption? hhelp hstrict hcause)
    rw [Flag.ofWords, if_neg hhelp, if_neg hstrict, hcause]
  | case5 word hhelp hstrict make hmake =>
    obtain ⟨item, hwords⟩ := exists_of_ofOption? hmake []
    refine .blamed [] word [] (.missingValue word) rfl ?_ (.missing hwords)
    rw [Flag.ofWords, if_neg hhelp, if_neg hstrict, hmake]
  | case6 word hhelp hstrict make hmake value rest ih =>
    obtain ⟨item, hwords⟩ := exists_of_ofOption? hmake value
    have hcut := ih.append item
    rwa [hwords] at hcut

end Item

/-- What a sequence of items asks for. -/
structure Asks (items : List Item) (line : CommandLine) : Prop where
  overrides : line.overrides = items.filterMap Item.override?
  lastPath : ∀ front path back, items = front ++ .config path :: back →
    (∀ other, Item.config other ∉ back) → line.configPath = path
  noPath : (∀ path, Item.config path ∉ items) → line.configPath = []
  help : line.showHelp = true ↔ Item.help ∈ items ∨ Item.shortHelp ∈ items

/-- Takes a flag in. -/
def add (line : CommandLine) : Flag → CommandLine
  | .help => { line with showHelp := true }
  | .strict => { line with overrides := line.overrides ++ [⟨utf8 "strict", utf8 "yes"⟩] }
  | .option key value => { line with overrides := line.overrides ++ [⟨key.name, value⟩] }
  | .config path => { line with configPath := path }

/-- Takes in one flag after another, in place. What was taken in stays there when a later word is
refused. -/
def scan : List Bytes → EStateM CommandLineError CommandLine Unit
  | [] => pure ()
  | word :: rest =>
    if word = utf8 "--help" ∨ word = utf8 "-h" then do
      modify (add · .help)
      scan rest
    else if word = utf8 "--strict" then do
      modify (add · .strict)
      scan rest
    else match Flag.ofOption? word with
      | .error cause => throw cause
      | .ok flag =>
        match rest with
        | [] => throw (.missingValue word)
        | value :: rest => do
          modify (add · (flag value))
          scan rest

/-- Fills a command line of its own, and hands it to the caller at last. -/
def parseInto (argv : List Bytes) : EStateM CommandLineError CommandLine Unit := do
  set (← InPlace.apart (scan argv.tail) ⟨[], [], false⟩)

theorem ofFlags_concat (flags : List Flag) (flag : Flag) :
    ofFlags (flags ++ [flag]) = (ofFlags flags).add flag := by
  rw [ofFlags, List.filterMap_append, List.filterMap_append, List.contains_append]
  cases flag with
  | help =>
    show CommandLine.mk ((_ ++ []).getLastD []) (_ ++ []) (_ || true) = _
    rw [List.append_nil, List.append_nil, Bool.or_true]
    rfl
  | strict =>
    show CommandLine.mk ((_ ++ []).getLastD []) (_ ++ [_]) (_ || false) = _
    rw [List.append_nil, Bool.or_false]
    rfl
  | option key value =>
    show CommandLine.mk ((_ ++ []).getLastD []) (_ ++ [_]) (_ || false) = _
    rw [List.append_nil, Bool.or_false]
    rfl
  | config path =>
    show CommandLine.mk ((_ ++ [_]).getLastD []) (_ ++ []) (_ || false) = _
    rw [List.getLastD_concat, List.append_nil, Bool.or_false]
    rfl

theorem foldl_add (flags : List Flag) : flags.foldl add ⟨[], [], false⟩ = ofFlags flags := by
  -- From the end, since the last path is the one that stays.
  induction flags using List.reverseRecOn with
  | nil => rfl
  | append_singleton flags flag ih => rw [List.foldl_concat, ih, ofFlags_concat]

/-- The words are taken in as the flags that they are read as, or are refused for the same reason. -/
def IsScanned (words : List Bytes) (line : CommandLine) : Prop :=
  match Flag.ofWords words with
  | .ok flags => scan words line = .ok () (flags.foldl add line)
  | .error cause => ∃ left, scan words line = .error cause left

theorem IsScanned.cons {words rest : List Bytes} {line : CommandLine} (flag : Flag)
    (h : IsScanned rest (line.add flag))
    (hread : Flag.ofWords words = (Flag.ofWords rest).map (flag :: ·))
    (hscan : scan words line = scan rest (line.add flag)) : IsScanned words line := by
  rw [IsScanned, hread, hscan]
  rw [IsScanned] at h
  cases hrest : Flag.ofWords rest with
  | error cause =>
    rw [hrest] at h
    exact h
  | ok flags =>
    rw [hrest] at h
    exact h

theorem isScanned (words : List Bytes) (line : CommandLine) : IsScanned words line := by
  induction words using Flag.ofWords.induct generalizing line with
  | case1 => rfl
  | case2 word rest hhelp ih =>
    refine (ih _).cons .help ?_ ?_
    · rw [Flag.ofWords, if_pos hhelp]
    · rw [scan, if_pos hhelp]
      rfl
  | case3 rest hhelp ih =>
    refine (ih _).cons .strict ?_ ?_
    · rw [Flag.ofWords, if_neg hhelp, if_pos rfl]
    · rw [scan, if_neg hhelp, if_pos rfl]
      rfl
  | case4 word rest hhelp hstrict cause hcause =>
    rw [IsScanned, Flag.ofWords, if_neg hhelp, if_neg hstrict, hcause]
    refine ⟨line, ?_⟩
    rw [scan, if_neg hhelp, if_neg hstrict, hcause]
    rfl
  | case5 word hhelp hstrict make hmake =>
    rw [IsScanned, Flag.ofWords, if_neg hhelp, if_neg hstrict, hmake]
    refine ⟨line, ?_⟩
    rw [scan, if_neg hhelp, if_neg hstrict, hmake]
    rfl
  | case6 word hhelp hstrict make hmake value rest ih =>
    refine (ih _).cons (make value) ?_ ?_
    · rw [Flag.ofWords, if_neg hhelp, if_neg hstrict, hmake]
    · rw [scan, if_neg hhelp, if_neg hstrict, hmake]
      rfl

/-- The caller gets what was read, and keeps what there was if the words are refused. -/
theorem parseInto_yields (argv : List Bytes) : InPlace.Yields (parseInto argv) (parse argv) := by
  have hscan := isScanned argv.tail ⟨[], [], false⟩
  rw [IsScanned] at hscan
  refine InPlace.yields_set_apart ?_
  rw [parse]
  cases hread : Flag.ofWords argv.tail with
  | error cause =>
    rw [hread] at hscan
    exact hscan
  | ok flags =>
    rw [hread] at hscan
    exact hscan.trans (congrArg (EStateM.Result.ok ()) (foldl_add flags))

theorem filterMap_path?_eq_nil {items : List Item} (h : ∀ path, Item.config path ∉ items) :
    (items.map Item.flag).filterMap Flag.path? = [] := by
  rw [List.filterMap_map, List.filterMap_eq_nil_iff]
  intro item hitem
  cases item with
  | config path => exact absurd hitem (h path)
  | _ => rfl

theorem asks_ofFlags (items : List Item) : Asks items (ofFlags (items.map Item.flag)) where
  overrides := by
    show (items.map Item.flag).filterMap Flag.directive? = _
    rw [List.filterMap_map]
    exact congrArg (List.filterMap · items) (funext Item.directive?_flag)
  lastPath front path back hsplit hback := by
    subst hsplit
    rw [ofFlags, List.map_append, List.map_cons, List.filterMap_append]
    show (_ ++ path :: _).getLastD [] = path
    rw [filterMap_path?_eq_nil hback, List.getLastD_concat]
  noPath h := by
    rw [ofFlags, filterMap_path?_eq_nil h]
    rfl
  help := by
    rw [ofFlags, List.contains_iff_mem, List.mem_map]
    constructor
    · rintro ⟨item, hitem, hflag⟩
      cases item <;> cases hflag
      · exact Or.inl hitem
      · exact Or.inr hitem
    · rintro (hitem | hitem)
      · exact ⟨_, hitem, rfl⟩
      · exact ⟨_, hitem, rfl⟩

/-- A command line is read exactly if the words behind the program's name are items. They are so in one
way, and what the caller gets is what these items ask for. Otherwise the complaint is about the first word
behind the longest sequence of items, and the caller's command line stays as it was. -/
theorem parse_exact (caller : CommandLine) (argv : List Bytes) :
    ((∃ line, parse argv = .ok line) ↔ ∃ items, Item.join items = argv.tail) ∧
    (∀ items, Item.join items = argv.tail → (∀ other, Item.join other = argv.tail → other = items) ∧
      ∃ line, parse argv = .ok line ∧ parseInto argv caller = .ok () line ∧ Asks items line) ∧
    ((¬∃ items, Item.join items = argv.tail) → ∃ items word rest cause,
      argv.tail = Item.join items ++ word :: rest ∧
      (∀ other, Item.join other <+: argv.tail → other <+: items) ∧
      parse argv = .error cause ∧ Item.Blames word rest cause.message ∧
      parseInto argv caller = .error cause caller) := by
  have hok : ∀ items, Item.join items = argv.tail →
      parse argv = .ok (ofFlags (items.map Item.flag)) := by
    intro items hitems
    rw [parse, ← hitems, Item.ofWords_join]
    rfl
  refine ⟨⟨?_, ?_⟩, fun items hitems => ?_, fun hnone => ?_⟩
  · rintro ⟨line, hline⟩
    cases Item.cut argv.tail with
    | complete items hitems => exact ⟨items, hitems⟩
    | blamed items word rest cause hsplit hread hblames =>
      rw [parse, hread] at hline
      cases hline
  · rintro ⟨items, hitems⟩
    exact ⟨_, hok items hitems⟩
  · refine ⟨fun other hother => Item.join_inj (hother.trans hitems.symm), _, hok items hitems, ?_,
      asks_ofFlags items⟩
    rw [parseInto_yields, hok items hitems]
    rfl
  · cases Item.cut argv.tail with
    | complete items hitems => exact absurd ⟨items, hitems⟩ hnone
    | blamed items word rest cause hsplit hread hblames =>
      have herror : parse argv = .error cause := by
        rw [parse, hread]
        rfl
      refine ⟨items, word, rest, cause, hsplit, fun other hother => ?_, herror, hblames, ?_⟩
      · rw [hsplit] at hother
        exact Item.prefix_of_join_prefix hblames.stuck hother
      · rw [parseInto_yields, herror]
        rfl

/-- Values that look like flags are values. A second command line ends in an option that is not known,
behind a value that looks like an option. -/
theorem parse_exact_values_like_flags :
    let accepted := ["rb", "--host", "--strict", "--config", "-h", "--strict", "--config", "b",
      "--help"].map utf8
    let refused := ["rb", "-h", "--port", "--clients", "--zone", "--strict"].map utf8
    let items : List Item := [.option .host nofun (utf8 "--strict"), .config (utf8 "-h"), .strict,
      .config (utf8 "b"), .help]
    let caller : CommandLine := ⟨utf8 "a", [], false⟩
    let line : CommandLine :=
      ⟨utf8 "b", [⟨utf8 "host", utf8 "--strict"⟩, ⟨utf8 "strict", utf8 "yes"⟩], true⟩
    Item.join items = accepted.tail ∧ (∀ other, Item.join other = accepted.tail → other = items) ∧
    parse accepted = .ok line ∧ parseInto accepted caller = .ok () line ∧ Asks items line ∧
    (¬∃ items, Item.join items = refused.tail) ∧
    parse refused = .error (.unknownOption (utf8 "--zone")) ∧
    parseInto refused caller = .error (.unknownOption (utf8 "--zone")) caller ∧
    ∃ cut word rest, refused.tail = Item.join cut ++ word :: rest ∧
      [.shortHelp, .option .port nofun (utf8 "--clients")] <+: cut ∧
      Item.Blames word rest (utf8 "unknown option: --zone") := by
  intro accepted refused items caller line
  obtain ⟨-, haccepted, -⟩ := parse_exact caller accepted
  obtain ⟨hiff, -, hrefused⟩ := parse_exact caller refused
  have hitems : Item.join items = accepted.tail := by decide +kernel
  have hline : parse accepted = .ok line := by decide +kernel
  have herror : parse refused = .error (.unknownOption (utf8 "--zone")) := by decide +kernel
  have hnone : ¬∃ items, Item.join items = refused.tail := by
    rw [← hiff, herror]
    exact nofun
  obtain ⟨hunique, own, hparsed, hinto, hasks⟩ := haccepted items hitems
  obtain ⟨cut, word, rest, cause, hsplit, hlongest, hcause, hblames, hkept⟩ := hrefused hnone
  obtain rfl := Except.ok.inj (hline.symm.trans hparsed)
  obtain rfl := Except.error.inj (herror.symm.trans hcause)
  exact ⟨hitems, hunique, hline, hinto, hasks, hnone, herror, hkept, cut, word, rest, hsplit,
    hlongest _ (by decide +kernel), hblames⟩

end RespLoad.CommandLine
