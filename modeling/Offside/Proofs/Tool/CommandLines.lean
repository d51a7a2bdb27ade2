import Offside.Proofs.Tool.Trees
import Offside.Tool.Options

/-!
# Command lines with and without the check

The check is asked for by one argument of its own, which no other option takes for its value and
which cannot be given twice. So a command line that is right with it is right without it, and
asks for the same otherwise.
-/

namespace Offside.Tool

namespace Options

/-! ## Arguments that end the reading -/

/-- What ends the reading of arguments is no request for a run. -/
def EndsWithoutRun {α : Type} (result : Except Request α) : Prop :=
  ∀ options, result ≠ .error (.run options)

/-- If a first step cannot end in a run and no second step can, neither can both together. -/
theorem endsWithoutRun_bind {α β : Type} {first : Except Request α}
    {next : α → Except Request β} (early : EndsWithoutRun first)
    (late : ∀ value, EndsWithoutRun (next value)) : EndsWithoutRun (first >>= next) := by
  intro options
  cases first with
  | error request => exact fun same => early options (by cases same; rfl)
  | ok value => exact late value options

/-- Setting an option to a value ends in no run. It succeeds or is refused, and both keep the run
    out. -/
theorem endsWithoutRun_setValue (options : Options) (option : ValueOption) (value : String) :
    EndsWithoutRun (options.setValue option value) := by
  unfold setValue
  intro last
  split
  · exact nofun
  · split <;> simp

/-- Setting a flag ends in no run, though it may end in help or in the version being asked for. -/
theorem endsWithoutRun_setFlag (options : Options) (flag : Flag) :
    EndsWithoutRun (options.setFlag flag) := by
  cases flag with
  | check =>
      intro last
      rw [setFlag]
      split <;> simp
  | verbose => exact nofun
  | help => exact nofun
  | version => exact nofun

/-- A group of short options ends in no run by itself, by induction on its letters. -/
theorem endsWithoutRun_shortOptions (options : Options) (letters : List Char) :
    EndsWithoutRun (options.shortOptions letters) := by
  induction letters generalizing options with
  | nil => exact nofun
  | cons letter rest ih =>
      unfold shortOptions
      split
      · exact nofun
      · exact endsWithoutRun_bind (endsWithoutRun_setFlag options _) fun next => ih next
      · split
        · exact nofun
        · exact endsWithoutRun_bind (endsWithoutRun_setValue options _ _) fun _ => nofun

/-- One argument ends in no run by itself, whether it is a long option, short ones or nothing of the
    kind. -/
theorem endsWithoutRun_argument (options : Options) (text : String) :
    EndsWithoutRun (options.argument text) := by
  unfold argument
  split
  · simp only
    split
    · exact nofun
    · exact endsWithoutRun_bind (endsWithoutRun_setValue options _ _) fun _ => nofun
    · exact endsWithoutRun_bind (endsWithoutRun_setFlag options _) fun _ => nofun
    · exact nofun
  · exact endsWithoutRun_shortOptions options _
  · exact nofun

/-- All arguments together end in no run, by induction on them. So a run is only asked for when all
    of them have been read. -/
theorem endsWithoutRun_arguments (options : Options) (waiting : Option ValueOption)
    (texts : List String) : EndsWithoutRun (options.arguments waiting texts) := by
  induction texts generalizing options waiting with
  | nil => cases waiting <;> exact nofun
  | cons text rest ih =>
      cases waiting with
      | some option =>
          rw [arguments]
          split
          · exact endsWithoutRun_bind (endsWithoutRun_setValue options option text)
              fun next => ih next none
          · exact nofun
      | none =>
          rw [arguments]
          split
          · split <;> exact nofun
          · exact endsWithoutRun_bind (endsWithoutRun_argument options text)
              fun next => ih next.1 next.2

/-! ## The check -/

/-- The same options, but everything is written. -/
def unchecked (options : Options) : Options :=
  { options with check := false }

/-- An option with a value is set with the check as without it, and the check stays on. -/
theorem setValue_unchecked {options next : Options} {option : ValueOption} {value : String}
    (checked : options.check = true) (set : options.setValue option value = .ok next) :
    options.unchecked.setValue option value = .ok next.unchecked ∧ next.check = true := by
  obtain ⟨input, output, check, verbosity⟩ := options
  unfold setValue at set ⊢
  split at set
  next => contradiction
  next nonempty =>
    rw [if_neg nonempty]
    cases option <;> cases input <;> cases output <;> cases set <;> exact ⟨rfl, checked⟩

/-- No flag depends on the check but the check itself, which is refused here. -/
theorem setFlag_unchecked {options next : Options} {flag : Flag} (checked : options.check = true)
    (set : options.setFlag flag = .ok next) :
    options.unchecked.setFlag flag = .ok next.unchecked ∧ next.check = true := by
  cases flag with
  | check =>
      rw [setFlag, if_pos checked] at set
      contradiction
  | verbose =>
      cases set
      exact ⟨rfl, checked⟩
  | help => contradiction
  | version => contradiction

/-- Short options are read with the check as without it, for after it has been asked for none of
    them can ask for it again. The induction is on the letters. -/
theorem shortOptions_unchecked {options next : Options} {letters : List Char}
    {waiting : Option ValueOption} (checked : options.check = true)
    (read : options.shortOptions letters = .ok (next, waiting)) :
    options.unchecked.shortOptions letters = .ok (next.unchecked, waiting) ∧
      next.check = true := by
  induction letters generalizing options with
  | nil =>
      cases read
      exact ⟨rfl, checked⟩
  | cons letter rest ih =>
      unfold shortOptions at read ⊢
      split at read
      next => contradiction
      next flag found =>
        obtain ⟨middle, set, read⟩ := ok_bind_iff.mp read
        obtain ⟨alsoSet, stillChecked⟩ := setFlag_unchecked checked set
        obtain ⟨alsoRead, last⟩ := ih stillChecked read
        exact ⟨ok_bind_iff.mpr ⟨_, alsoSet, alsoRead⟩, last⟩
      next option found =>
        split at read
        next isLast =>
          rw [if_pos isLast]
          cases read
          exact ⟨rfl, checked⟩
        next isLast =>
          rw [if_neg isLast]
          obtain ⟨middle, set, read⟩ := ok_bind_iff.mp read
          cases read
          obtain ⟨alsoSet, stillChecked⟩ := setValue_unchecked checked set
          exact ⟨ok_bind_iff.mpr ⟨_, alsoSet, rfl⟩, stillChecked⟩

/-- An argument is read with the check as without it, and an option that waits for a value is the
    same. -/
theorem argument_unchecked {options next : Options} {text : String}
    {waiting : Option ValueOption} (checked : options.check = true)
    (read : options.argument text = .ok (next, waiting)) :
    options.unchecked.argument text = .ok (next.unchecked, waiting) ∧ next.check = true := by
  unfold argument at read ⊢
  split at read
  next long isLong =>
    simp only at read ⊢
    split at read
    next option found value =>
      cases read
      exact ⟨rfl, checked⟩
    next option value found isValue =>
      obtain ⟨middle, set, read⟩ := ok_bind_iff.mp read
      cases read
      obtain ⟨alsoSet, stillChecked⟩ := setValue_unchecked checked set
      exact ⟨ok_bind_iff.mpr ⟨_, alsoSet, rfl⟩, stillChecked⟩
    next flag found isValue =>
      obtain ⟨middle, set, read⟩ := ok_bind_iff.mp read
      cases read
      obtain ⟨alsoSet, stillChecked⟩ := setFlag_unchecked checked set
      exact ⟨ok_bind_iff.mpr ⟨_, alsoSet, rfl⟩, stillChecked⟩
    next => contradiction
  next first rest isShort => exact shortOptions_unchecked checked read
  next => contradiction

/-- From options with the check on, all that follows is read as it is without it. -/
theorem arguments_unchecked {options last : Options} {waiting : Option ValueOption}
    {texts : List String} (checked : options.check = true)
    (read : options.arguments waiting texts = .ok last) :
    options.unchecked.arguments waiting texts = .ok last.unchecked ∧ last.check = true := by
  induction texts generalizing options waiting with
  | nil =>
      cases waiting with
      | none =>
          cases read
          exact ⟨rfl, checked⟩
      | some option => contradiction
  | cons text rest ih =>
      cases waiting with
      | some option =>
          rw [arguments] at read ⊢
          split at read
          next isValue =>
            rw [if_pos isValue]
            obtain ⟨middle, set, read⟩ := ok_bind_iff.mp read
            obtain ⟨alsoSet, stillChecked⟩ := setValue_unchecked checked set
            obtain ⟨alsoRead, isLast⟩ := ih stillChecked read
            exact ⟨ok_bind_iff.mpr ⟨_, alsoSet, alsoRead⟩, isLast⟩
          next => contradiction
      | none =>
          rw [arguments] at read ⊢
          split at read
          next isEnd =>
            rw [if_pos isEnd]
            split at read
            next none =>
              rw [if_pos none]
              cases read
              exact ⟨rfl, checked⟩
            next => contradiction
          next isEnd =>
            rw [if_neg isEnd]
            obtain ⟨⟨next, waiting⟩, isRead, read⟩ := ok_bind_iff.mp read
            obtain ⟨alsoRead, stillChecked⟩ := argument_unchecked checked isRead
            obtain ⟨further, isLast⟩ := ih stillChecked read
            exact ⟨ok_bind_iff.mpr ⟨_, alsoRead, further⟩, isLast⟩

/-- Arguments that ask for the check ask for the same without it, except for the check. -/
theorem arguments_check {options last : Options} {waiting : Option ValueOption}
    {before after : List String}
    (read : options.arguments waiting (before ++ "--check" :: after) = .ok last) :
    options.arguments waiting (before ++ after) = .ok last.unchecked ∧ last.check = true := by
  induction before generalizing options waiting with
  | nil =>
      cases waiting with
      | some option => contradiction
      | none =>
          have isCheck : options.argument "--check" =
              (options.setFlag .check).bind fun next => .ok (next, none) := rfl
          rw [List.nil_append, arguments, if_neg (by decide), isCheck, setFlag] at read
          split at read
          next => contradiction
          next notYet =>
            have same : options = { options with check := true }.unchecked := by
              simp only [unchecked, Bool.not_eq_true] at notYet ⊢
              rw [← notYet]
            rw [List.nil_append, same]
            exact arguments_unchecked rfl read
  | cons text before ih =>
      cases waiting with
      | some option =>
          rw [List.cons_append, arguments] at read ⊢
          split at read
          next isValue =>
            rw [if_pos isValue]
            obtain ⟨middle, set, read⟩ := ok_bind_iff.mp read
            obtain ⟨further, isLast⟩ := ih read
            exact ⟨ok_bind_iff.mpr ⟨_, set, further⟩, isLast⟩
          next => contradiction
      | none =>
          rw [List.cons_append, arguments] at read ⊢
          split at read
          next isEnd =>
            simp at read
          next isEnd =>
            rw [if_neg isEnd]
            obtain ⟨⟨next, waiting⟩, isRead, read⟩ := ok_bind_iff.mp read
            obtain ⟨further, isLast⟩ := ih read
            exact ⟨ok_bind_iff.mpr ⟨_, isRead, further⟩, isLast⟩

end Options

/-- A run is asked for exactly when all arguments have been read, starting from no options, and its
    options are those that were read. -/
theorem Request.ofArguments_run_iff {arguments : List String} {options : Options} :
    Request.ofArguments arguments = .run options ↔
      Options.empty.arguments none arguments = .ok options := by
  unfold Request.ofArguments
  split
  next last read =>
    rw [read]
    exact ⟨fun same => by cases same; rfl, fun same => by cases same; rfl⟩
  next request read =>
    rw [read]
    constructor
    · rintro rfl
      exact absurd read (Options.endsWithoutRun_arguments _ _ _ options)
    · exact nofun

/-- A command line that asks for the check asks for the same without it, except for the
    check. -/
theorem Request.ofArguments_check {before after : List String} {options : Options}
    (asked : Request.ofArguments (before ++ "--check" :: after) = .run options) :
    Request.ofArguments (before ++ after) = .run options.unchecked ∧ options.check = true := by
  have read := Options.arguments_check (Request.ofArguments_run_iff.mp asked)
  exact ⟨Request.ofArguments_run_iff.mpr read.1, read.2⟩

end Offside.Tool
