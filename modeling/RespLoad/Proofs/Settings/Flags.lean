import RespLoad.Settings.CommandLine

/-!
# Flags on a command line

Words that are read as flags are read the same whatever comes behind them. So the option that names the
configuration file may be moved across other flags, as long as none of these names a file.
-/
namespace RespLoad

namespace Flag

theorem map_append_cons (flag : Flag) (flags : List Flag)
    (read : Except CommandLineError (List Flag)) :
    (read.map (flags ++ ·)).map (flag :: ·) = read.map (flag :: flags ++ ·) := by
  cases read <;> rfl

theorem exists_of_map_eq_ok {flag : Flag} {read : Except CommandLineError (List Flag)}
    {flags : List Flag} (h : read.map (flag :: ·) = .ok flags) :
    ∃ more, read = .ok more ∧ flag :: more = flags := by
  cases read with
  | error cause => cases h
  | ok more => exact ⟨more, rfl, Except.ok.inj h⟩

theorem ofWords_append {front : List Bytes} {flags : List Flag} (h : ofWords front = .ok flags)
    (back : List Bytes) : ofWords (front ++ back) = (ofWords back).map (flags ++ ·) := by
  fun_induction ofWords front generalizing flags with
  | case1 =>
    cases h
    rw [List.nil_append]
    cases ofWords back <;> rfl
  | case2 word rest hhelp ih =>
    obtain ⟨more, hmore, rfl⟩ := exists_of_map_eq_ok h
    rw [List.cons_append, ofWords, if_pos hhelp, ih hmore, map_append_cons]
  | case3 rest hhelp ih =>
    obtain ⟨more, hmore, rfl⟩ := exists_of_map_eq_ok h
    rw [List.cons_append, ofWords, if_neg hhelp, if_pos rfl, ih hmore, map_append_cons]
  | case4 => cases h
  | case5 => cases h
  | case6 word hhelp hstrict flag hflag value rest ih =>
    obtain ⟨more, hmore, rfl⟩ := exists_of_map_eq_ok h
    rw [List.cons_append, List.cons_append, ofWords, if_neg hhelp, if_neg hstrict, hflag]
    simp only [ih hmore, map_append_cons]

theorem ofWords_config (path : Bytes) (words : List Bytes) :
    ofWords (utf8 "--config" :: path :: words) = (ofWords words).map (.config path :: ·) := by
  rw [ofWords, if_neg (by decide), if_neg (by decide)]
  rfl

end Flag

namespace CommandLine

/-- A flag that names a file may stand in front of flags that name none. -/
theorem ofFlags_config (path : Bytes) {passed : List Flag}
    (h : ∀ flag ∈ passed, flag.path? = none) (front back : List Flag) :
    ofFlags (front ++ .config path :: (passed ++ back)) =
      ofFlags (front ++ (passed ++ .config path :: back)) := by
  have hpaths : passed.filterMap Flag.path? = [] := List.filterMap_eq_nil_iff.mpr h
  simp only [ofFlags, List.filterMap_append, List.filterMap_cons, Flag.path?, Flag.directive?,
    hpaths, List.nil_append, List.contains_eq_any_beq, List.any_append, List.any_cons]
  simp only [Bool.or_left_comm]

theorem parse_config {front middle : List Bytes} {flags passed : List Flag}
    (hfront : Flag.ofWords front = .ok flags) (hmiddle : Flag.ofWords middle = .ok passed)
    (h : ∀ flag ∈ passed, flag.path? = none) (program path : Bytes) (back : List Bytes) :
    parse (program :: (front ++ utf8 "--config" :: path :: (middle ++ back))) =
      parse (program :: (front ++ (middle ++ utf8 "--config" :: path :: back))) := by
  simp only [parse, List.tail_cons, Flag.ofWords_append hfront, Flag.ofWords_append hmiddle,
    Flag.ofWords_config]
  cases Flag.ofWords back with
  | error cause => rfl
  | ok last => exact congrArg Except.ok (ofFlags_config path h flags last)

end CommandLine

end RespLoad
