import Chip8.Headless.Arguments
import Mathlib.Algebra.Group.Nat.Defs
import Mathlib.Data.List.Induction
import Mathlib.Data.List.TakeWhile
import Mathlib.Tactic.MkIffOfInductiveProp

/-!
# Command lines

Which command lines run a program, and with which arguments. Neither is said in
the order of reading. A command line spells tokens, in one of several ways, as a
value may stand by itself or behind an equals sign. And tokens mean arguments:
one of them is the path of a program, and each option is there at most once,
with a value that fits.

Reading cuts a command line from the left and fills a draft token by token. It
stops at whatever is wrong, so what it does not stop at is spelled, and a draft
that is filled holds just what its tokens mean.
-/
namespace Chip8.Headless

/-- An argument that is no option. A dash by itself is none. -/
def Plain (argument : String) : Prop := ∀ name, argument.toList = '-' :: name → name = []

/-- The ways to spell tokens. -/
inductive Spells : List String → List Token → Prop
  | nothing : Spells [] []
  | path {argument : String} {rest : List String} {tokens : List Token} : Plain argument →
    Spells rest tokens → Spells (argument :: rest) (.path argument :: tokens)
  | apart (setting : Setting) {value : String} {rest : List String} {tokens : List Token} :
    Plain value → Spells rest tokens →
    Spells (setting.name :: value :: rest) (.setting setting value :: tokens)
  | joined (setting : Setting) (value : String) {rest : List String} {tokens : List Token} :
    Spells rest tokens →
    Spells ((setting.name ++ "=" ++ value) :: rest) (.setting setting value :: tokens)
  | flag (flag : Flag) {rest : List String} {tokens : List Token} : Spells rest tokens →
    Spells (flag.name :: rest) (.flag flag :: tokens)
  | paths (rest : List String) : Spells ("--" :: rest) (rest.map .path)

/-- Decimal digits after an optional plus sign, and the number that they stand for. -/
def Numeral (text : String) (number : Nat) : Prop :=
  ∃ digits : List Char, (text.toList = digits ∨ text.toList = '+' :: digits) ∧ digits ≠ [] ∧
    (∀ c ∈ digits, c.isDigit = true) ∧ number = Nat.ofDigitChars 10 digits 0

namespace Token

def path? : Token → Option String
  | .path argument => some argument
  | _ => none

/-- The value that a token gives to a setting. -/
def value? (setting : Setting) : Token → Option String
  | .setting named value => if named = setting then some value else none
  | _ => none

end Token

def paths (tokens : List Token) : List String := tokens.filterMap Token.path?

def values (setting : Setting) (tokens : List Token) : List String :=
  tokens.filterMap (Token.value? setting)

/-- What can be given once, from the texts that give it. -/
def Given {Value : Type} (reads : String → Value → Prop) (texts : List String) :
    Option Value → Prop
  | none => texts = []
  | some value => ∃ text, texts = [text] ∧ reads text value

/-- A pace is a number of 32 bits and not zero. -/
def ReadsPace (text : String) (pace : Pace) : Prop :=
  Numeral text pace.hertz ∧ pace.hertz < 2 ^ 32

def ReadsCycles (text : String) (cycles : Nat) : Prop := Numeral text cycles ∧ cycles < 2 ^ 64

def ReadsSeed (text : String) (seed : UInt64) : Prop := Numeral text seed.toNat

def ReadsPath (text path : String) : Prop := text = path ∧ path ≠ ""

/-- The arguments that tokens stand for, in whatever order they come. -/
structure Means (tokens : List Token) (arguments : Arguments) : Prop where
  rom : Given ReadsPath (paths tokens) (some arguments.rom)
  pace : ∃ pace, Given ReadsPace (values .hz tokens) pace ∧
    arguments.pace.hertz = (pace.map Pace.hertz).getD 500
  maxCycles : Given ReadsCycles (values .maxCycles tokens) arguments.maxCycles
  seed : Given ReadsSeed (values .seed tokens) arguments.seed
  dump : Given ReadsPath (values .dump tokens) arguments.dump
  hostExtensions : tokens.count (.flag .hostExtensions) = arguments.dialect.hostExtensions.toNat
  standardBorrow : tokens.count (.flag .standardBorrow) = arguments.dialect.standardBorrow.toNat

namespace Token

theorem looksLikeOption_iff {argument : String} :
    looksLikeOption argument = true ↔ ¬Plain argument := by
  unfold looksLikeOption Plain
  split
  next first name dashed => simp [dashed]
  next other =>
    suffices alone : ∀ name, argument.toList = '-' :: name → name = [] by simpa using alone
    intro name dashed
    cases name with
    | nil => rfl
    | cons first name => exact absurd dashed (other first name)

theorem isLong_iff {argument : String} :
    isLong argument = true ↔ ∃ name, argument.toList = '-' :: '-' :: name := by
  unfold isLong
  split
  next name dashed => simp [dashed]
  next other => simpa using other

section

variable {argument name value : String}

/-- An argument is its name, or its name and its value around an equals sign. -/
theorem splitEquals_cases (argument : String) :
    ∃ name, splitEquals argument = (name, none) ∧ argument = name ∨
      ∃ value, splitEquals argument = (name, some value) ∧ argument = name ++ "=" ++ value := by
  have whole : argument.toList.takeWhile (· ≠ '=') ++ argument.toList.dropWhile (· ≠ '=') =
      argument.toList := List.takeWhile_append_dropWhile
  have sign := List.head?_dropWhile_not (· ≠ '=') argument.toList
  refine ⟨String.ofList (argument.toList.takeWhile (· ≠ '=')), ?_⟩
  unfold splitEquals
  cases rest : argument.toList.dropWhile (· ≠ '=') with
  | nil =>
    rw [rest, List.append_nil] at whole
    exact .inl ⟨rfl, by rw [whole, String.ofList_toList]⟩
  | cons c later =>
    rw [rest] at whole sign
    obtain rfl : c = '=' := by simpa using sign
    refine .inr ⟨String.ofList later, rfl, ?_⟩
    rw [← String.toList_inj]
    simpa using whole.symm

theorem eq_of_splitEquals_none (split : splitEquals argument = (name, none)) :
    argument = name := by
  obtain ⟨found, ⟨cut, same⟩ | ⟨value, cut, -⟩⟩ := splitEquals_cases argument
  all_goals cases cut.symm.trans split
  exact same

theorem eq_of_splitEquals_some (split : splitEquals argument = (name, some value)) :
    argument = name ++ "=" ++ value := by
  obtain ⟨found, ⟨cut, -⟩ | ⟨value, cut, same⟩⟩ := splitEquals_cases argument
  all_goals cases cut.symm.trans split
  exact same

variable (simple : '=' ∉ name.toList)
include simple

theorem splitEquals_name : splitEquals name = (name, none) := by
  have all : ∀ c ∈ name.toList, decide (c ≠ '=') = true := fun c member =>
    decide_eq_true fun sign => simple (sign ▸ member)
  rw [splitEquals, List.takeWhile_eq_self_iff.mpr all, List.dropWhile_eq_nil_iff.mpr all,
    String.ofList_toList]

theorem splitEquals_joined (value : String) :
    splitEquals (name ++ "=" ++ value) = (name, some value) := by
  have all : ∀ c ∈ name.toList, decide (c ≠ '=') = true := fun c member =>
    decide_eq_true fun sign => simple (sign ▸ member)
  have cut : (name ++ "=" ++ value).toList = name.toList ++ '=' :: value.toList := by simp
  rw [splitEquals, cut, List.takeWhile_append_of_pos all, List.dropWhile_append_of_pos all]
  simp

end

end Token

/-- The name of an option is a long one, and the equals sign is no part of it. -/
theorem Setting.name_long (setting : Setting) :
    setting.name ≠ "--" ∧ Token.isLong setting.name = true ∧ '=' ∉ setting.name.toList := by
  cases setting <;> decide +kernel

theorem Flag.name_long (flag : Flag) :
    flag.name ≠ "--" ∧ Token.isLong flag.name = true ∧ '=' ∉ flag.name.toList := by
  cases flag <;> decide +kernel

theorem Setting.ofName?_iff {name : String} {setting : Setting} :
    Setting.ofName? name = some setting ↔ name = setting.name := by
  constructor
  · intro found
    simpa [eq_comm] using List.find?_some found
  · rintro rfl
    cases setting <;> rfl

theorem Flag.ofName?_iff {name : String} {flag : Flag} :
    Flag.ofName? name = some flag ↔ name = flag.name := by
  constructor
  · intro found
    simpa [eq_comm] using List.find?_some found
  · rintro rfl
    cases flag <;> rfl

/-- No setting has the name of a flag. -/
theorem Setting.ofName?_flag (flag : Flag) : Setting.ofName? flag.name = none := by
  cases flag <;> rfl

/-- A command that runs no program. -/
def Command.Idle (command : Command) : Prop := ∀ arguments, command ≠ .run arguments

namespace Token

variable {rest : List String} {tokens : List Token}

theorem ofFlag_cases (name : String) (value : Option String) :
    (∃ flag : Flag, name = flag.name ∧ value = none ∧ ofFlag name value = .flag flag) ∨
      ∃ command, ofFlag name value = .stop command ∧ command.Idle := by
  unfold ofFlag
  split
  next flag found => exact .inl ⟨flag, Flag.ofName?_iff.mp found, rfl, rfl⟩
  next => exact .inr ⟨_, rfl, nofun⟩
  next =>
    split
    · split
      · exact .inr ⟨_, rfl, nofun⟩
      · split
        · exact .inr ⟨_, rfl, nofun⟩
        · exact .inr ⟨_, rfl, nofun⟩
    · exact .inr ⟨_, rfl, nofun⟩

theorem ofShort_stop (argument : String) :
    ∃ command, ofShort argument = .stop command ∧ command.Idle := by
  unfold ofShort
  split
  all_goals exact ⟨_, rfl, nofun⟩

/-- Tokens into which a command line was cut: they spell it, unless the reading stops at one. -/
structure Cut (argv : List String) (tokens : List Token) : Prop where
  idle (command : Command) : .stop command ∈ tokens → command.Idle
  spells : (∀ command, .stop command ∉ tokens) → Spells argv tokens

namespace Cut

variable {argv : List String}

theorem cons {token : Token} (goesOn : ∀ command, token ≠ .stop command)
    (spelled : Spells rest tokens → Spells argv (token :: tokens)) (cut : Cut rest tokens) :
    Cut argv (token :: tokens) where
  idle command member := by
    rcases List.mem_cons.mp member with rfl | later
    · exact absurd rfl (goesOn command)
    · exact cut.idle command later
  spells unstopped := spelled (cut.spells fun command later =>
    unstopped command (List.mem_cons_of_mem token later))

theorem stopped {command : Command} (idle : command.Idle)
    (later : ∀ command, .stop command ∈ tokens → command.Idle) :
    Cut argv (.stop command :: tokens) where
  idle other member := by
    rcases List.mem_cons.mp member with same | member
    · cases same
      exact idle
    · exact later other member
  spells unstopped := absurd List.mem_cons_self (unstopped command)

end Cut

theorem cut_ofArguments (argv : List String) : Cut argv (ofArguments argv) := by
  induction argv using ofArguments.induct with
  | case1 => exact ⟨nofun, fun _ => .nothing⟩
  | case2 rest =>
    rw [ofArguments, if_pos rfl]
    exact ⟨by simp, fun _ => .paths rest⟩
  | case3 argument rest dashes long name value unset split ih =>
    rw [ofArguments, if_neg dashes, if_pos long]
    simp only [split, unset]
    -- What is no setting is a flag, or nothing that a line can go on after.
    rcases ofFlag_cases name value with ⟨flag, rfl, rfl, flagged⟩ | ⟨command, stopped, idle⟩
    · obtain rfl := eq_of_splitEquals_none split
      rw [flagged]
      exact ih.cons nofun (.flag flag)
    · rw [stopped]
      exact .stopped idle ih.idle
  | case4 argument rest dashes long name setting value set split ih =>
    rw [ofArguments, if_neg dashes, if_pos long]
    simp only [split, set]
    obtain rfl := Setting.ofName?_iff.mp set
    obtain rfl := eq_of_splitEquals_some split
    exact ih.cons nofun (.joined setting value)
  | case5 argument dashes long name setting set split =>
    rw [ofArguments, if_neg dashes, if_pos long]
    simp only [split, set]
    exact .stopped nofun nofun
  | case6 argument dashes long name setting set value rest option split =>
    rw [ofArguments, if_neg dashes, if_pos long]
    simp only [split, set, option, if_true]
    exact .stopped nofun nofun
  | case7 argument dashes long name setting set value rest plain split ih =>
    rw [ofArguments, if_neg dashes, if_pos long]
    simp only [split, set, plain]
    obtain rfl := Setting.ofName?_iff.mp set
    obtain rfl := eq_of_splitEquals_none split
    rw [looksLikeOption_iff, not_not] at plain
    exact ih.cons nofun (.apart setting plain)
  | case8 argument rest dashes short option ih =>
    obtain ⟨command, stopped, idle⟩ := ofShort_stop argument
    rw [ofArguments, if_neg dashes, if_neg short, if_pos option, stopped]
    exact .stopped idle ih.idle
  | case9 argument rest dashes short plain ih =>
    rw [ofArguments, if_neg dashes, if_neg short, if_neg plain]
    rw [looksLikeOption_iff, not_not] at plain
    exact ih.cons nofun (.path plain)

/-- What is spelled is what is read. -/
theorem ofArguments_of_spells {argv : List String} (spelled : Spells argv tokens) :
    ofArguments argv = tokens := by
  induction spelled with
  | nothing => rw [ofArguments]
  | @path argument rest tokens plain _ ih =>
    have unlong : ¬isLong argument = true := fun long => by
      obtain ⟨name, dashed⟩ := isLong_iff.mp long
      cases plain _ dashed
    have dashes : argument ≠ "--" := by
      rintro rfl
      exact unlong rfl
    rw [ofArguments, if_neg dashes, if_neg unlong,
      if_neg fun option => looksLikeOption_iff.mp option plain, ih]
  | @apart setting value rest tokens plain _ ih =>
    obtain ⟨dashes, long, simple⟩ := setting.name_long
    have bare : ¬looksLikeOption value = true := fun option =>
      looksLikeOption_iff.mp option plain
    rw [ofArguments, if_neg dashes, if_pos long]
    simp only [splitEquals_name simple, Setting.ofName?_iff.mpr rfl, bare, ih]
    rfl
  | @joined setting value rest tokens _ ih =>
    obtain ⟨-, long, simple⟩ := setting.name_long
    obtain ⟨name, dashed⟩ := isLong_iff.mp long
    -- The sign tells it from the two dashes that end the options.
    have dashes : setting.name ++ "=" ++ value ≠ "--" := by
      intro same
      have sign : '=' ∈ "--".toList := by
        rw [← same]
        simp
      exact absurd sign (by decide +kernel)
    have long : isLong (setting.name ++ "=" ++ value) = true :=
      isLong_iff.mpr ⟨name ++ '=' :: value.toList, by simp [dashed]⟩
    rw [ofArguments, if_neg dashes, if_pos long]
    simp only [splitEquals_joined simple, Setting.ofName?_iff.mpr rfl, ih]
  | @flag flag rest tokens _ ih =>
    obtain ⟨dashes, long, simple⟩ := flag.name_long
    rw [ofArguments, if_neg dashes, if_pos long]
    simp only [splitEquals_name simple, Setting.ofName?_flag, ofFlag, Flag.ofName?_iff.mpr rfl, ih]
  | paths rest => rw [ofArguments, if_pos rfl]

theorem unstopped_of_spells {argv : List String} (spelled : Spells argv tokens)
    (command : Command) : .stop command ∉ tokens := by
  induction spelled with
  | nothing => nofun
  | path _ _ ih | apart _ _ _ ih | joined _ _ _ ih | flag _ _ ih => simpa using ih
  | paths rest => simp

end Token

theorem withoutPlus_cases (text : List Char) :
    text = withoutPlus text ∨ text = '+' :: withoutPlus text := by
  unfold withoutPlus
  split
  · exact .inr rfl
  · exact .inl rfl

theorem decimal?_iff {digits : List Char} {number : Nat} : decimal? digits = some number ↔
    digits ≠ [] ∧ (∀ c ∈ digits, c.isDigit = true) ∧ number = Nat.ofDigitChars 10 digits 0 := by
  have turned : Nat.ofDigitChars 10 digits 0 = number ↔
      number = Nat.ofDigitChars 10 digits 0 := eq_comm
  simp [decimal?, and_assoc, turned]

theorem wholeNumber?_iff {most : Nat} {text : String} {number : Nat} :
    wholeNumber? most text = some number ↔ Numeral text number ∧ number ≤ most := by
  simp only [wholeNumber?, Option.filter_eq_some_iff, decimal?_iff, decide_eq_true_eq]
  refine and_congr_left fun _ => ⟨fun digital => ?_, ?_⟩
  · exact ⟨withoutPlus text.toList, withoutPlus_cases text.toList, digital⟩
  · rintro ⟨digits, spelled, some, all, value⟩
    -- The sign is no digit, so it is not among them.
    have unsigned : withoutPlus digits = digits := by
      rcases withoutPlus_cases digits with same | signed
      · exact same.symm
      · exact absurd (all '+' (signed ▸ List.mem_cons_self)) (by decide)
    have rest : withoutPlus text.toList = digits := by
      rcases spelled with same | signed
      · rw [same, unsigned]
      · rw [signed]
        rfl
    rw [rest]
    exact ⟨some, all, value⟩

attribute [ext] Draft

namespace Draft

section

variable {text : String}

theorem pace?_iff {pace : Pace} : pace? text = some pace ↔ ReadsPace text pace := by
  simp only [pace?, Option.bind_eq_some_iff, wholeNumber?_iff, ReadsPace]
  constructor
  · rintro ⟨hertz, ⟨numeral, small⟩, read⟩
    split at read
    all_goals cases read
    exact ⟨numeral, Nat.lt_succ_of_le small⟩
  · rintro ⟨numeral, small⟩
    exact ⟨pace.hertz, ⟨numeral, Nat.le_of_lt_succ small⟩, dif_pos pace.positive⟩

theorem cycles?_iff {cycles : Nat} : cycles? text = some cycles ↔ ReadsCycles text cycles := by
  rw [cycles?, wholeNumber?_iff, ReadsCycles]
  exact and_congr_right fun _ => Nat.lt_succ_iff.symm

theorem seed?_iff {seed : UInt64} : seed? text = some seed ↔ ReadsSeed text seed := by
  simp only [seed?, Option.map_eq_some_iff, wholeNumber?_iff, ReadsSeed]
  constructor
  · rintro ⟨number, ⟨numeral, small⟩, rfl⟩
    rw [UInt64.toNat_ofNat_of_lt' (Nat.lt_succ_of_le small)]
    exact numeral
  · intro numeral
    exact ⟨seed.toNat, ⟨numeral, Nat.le_of_lt_succ seed.toNat_lt⟩, UInt64.ofNat_toNat⟩

theorem path?_iff {path : String} : path? text = some path ↔ ReadsPath text path := by
  unfold path? ReadsPath
  split
  next none => simp [none, eq_comm]
  next some =>
    simp only [Option.some.injEq]
    exact ⟨fun same => ⟨same, same ▸ some⟩, And.left⟩

end

section

variable {Value : Type} {setting : Setting} {text : String} {old value : Option Value}
  {update : Option Value → Draft}

theorem fill_iff {later : Draft} : (fill setting text old value).map update = .ok later ↔
    old = none ∧ ∃ read, value = some read ∧ update (some read) = later := by
  cases old with
  | some taken => simp [fill, Except.map]
  | none => cases value <;> simp [fill, Except.map]

theorem fill_idle {command : Command}
    (failed : (fill setting text old value).map update = .error command) : command.Idle := by
  rcases old with _ | taken
  · rcases value with _ | read
    all_goals cases failed
    nofun
  · cases failed
    nofun

end

/-- A token that cannot be taken leaves no program to run. -/
theorem take_idle {draft : Draft} {token : Token} {command : Command}
    (failed : draft.take token = .error command) : token = .stop command ∨ command.Idle := by
  cases token with
  | path path =>
    right
    simp only [take] at failed
    split at failed
    · cases failed
      nofun
    · split at failed
      all_goals cases failed
      nofun
  | setting setting text =>
    right
    cases setting
    all_goals exact fill_idle failed
  | flag flag =>
    right
    cases flag
    all_goals simp only [take, raise] at failed
    all_goals split at failed
    all_goals cases failed
    all_goals nofun
  | stop other =>
    left
    cases failed
    rfl

theorem foldlM_take_idle {draft : Draft} {tokens : List Token} {command : Command}
    (failed : tokens.foldlM take draft = .error command) :
    .stop command ∈ tokens ∨ command.Idle := by
  induction tokens generalizing draft with
  | nil => cases failed
  | cons token rest ih =>
    rw [List.foldlM_cons] at failed
    cases taken : draft.take token with
    | error other =>
      rw [taken] at failed
      cases failed
      rcases take_idle taken with rfl | idle
      · exact .inl List.mem_cons_self
      · exact .inr idle
    | ok later =>
      rw [taken] at failed
      exact (ih failed).imp_left (List.mem_cons_of_mem token)

/-- How the texts of one more token change what can be given once. -/
def Adds {Value : Type} (reads : String → Value → Prop) (texts : List String)
    (old new : Option Value) : Prop :=
  texts = [] ∧ old = new ∨
    old = none ∧ ∃ text read, texts = [text] ∧ reads text read ∧ new = some read

theorem given_append {Value : Type} {reads : String → Value → Prop} {texts more : List String}
    {new : Option Value} :
    Given reads (texts ++ more) new ↔ ∃ old, Given reads texts old ∧ Adds reads more old new := by
  constructor
  · intro given
    cases more with
    | nil =>
      rw [List.append_nil] at given
      exact ⟨new, given, .inl ⟨rfl, rfl⟩⟩
    | cons text more =>
      cases new with
      | none => simp [Given] at given
      | some read =>
        obtain ⟨only, same, reads⟩ := given
        obtain ⟨rfl, rfl, rfl⟩ : texts = [] ∧ text = only ∧ more = [] := by
          simpa [List.append_eq_singleton_iff] using same
        exact ⟨none, rfl, .inr ⟨rfl, text, read, rfl, reads, rfl⟩⟩
  · rintro ⟨old, given, ⟨rfl, rfl⟩ | ⟨rfl, text, read, rfl, reads, rfl⟩⟩
    · rw [List.append_nil]
      exact given
    · cases given
      exact ⟨text, rfl, reads⟩

/-- A flag is up once it is there, and cannot be there again. -/
def Raises (there : Prop) (old new : Bool) : Prop :=
  there ∧ old = false ∧ new = true ∨ ¬there ∧ old = new

theorem count_concat {tokens : List Token} {token other : Token} {new : Bool} :
    (tokens ++ [token]).count other = new.toNat ↔
      ∃ old : Bool, tokens.count other = old.toNat ∧ Raises (token = other) old new := by
  rw [List.count_append, List.count_singleton]
  by_cases there : token = other
  · cases new <;> simp [Raises, there]
  · simp [Raises, there]

/-- What taking a token makes of each part of a draft. -/
@[mk_iff]
structure Takes (draft : Draft) (token : Token) (later : Draft) : Prop where
  goesOn (command : Command) : token ≠ .stop command
  rom : Adds ReadsPath token.path?.toList draft.rom later.rom
  pace : Adds ReadsPace (token.value? .hz).toList draft.pace later.pace
  maxCycles : Adds ReadsCycles (token.value? .maxCycles).toList draft.maxCycles later.maxCycles
  seed : Adds ReadsSeed (token.value? .seed).toList draft.seed later.seed
  dump : Adds ReadsPath (token.value? .dump).toList draft.dump later.dump
  hostExtensions :
    Raises (token = .flag .hostExtensions) draft.hostExtensions later.hostExtensions
  standardBorrow :
    Raises (token = .flag .standardBorrow) draft.standardBorrow later.standardBorrow

theorem take_path_iff {draft later : Draft} {path : String} : draft.take (.path path) = .ok later ↔
    draft.rom = none ∧ ∃ read, ReadsPath path read ∧ { draft with rom := some read } = later := by
  cases old : draft.rom with
  | some taken => simp [take, old]
  | none =>
    by_cases empty : path = ""
    · simp [take, old, empty, ReadsPath, eq_comm]
    · simp [take, old, empty, ReadsPath]

theorem raise_iff {draft later : Draft} {flag : Flag} : draft.raise flag = .ok later ↔
    match flag with
    | .hostExtensions =>
      draft.hostExtensions = false ∧ { draft with hostExtensions := true } = later
    | .standardBorrow =>
      draft.standardBorrow = false ∧ { draft with standardBorrow := true } = later := by
  cases flag with
  | hostExtensions => cases up : draft.hostExtensions <;> simp [raise, up]
  | standardBorrow => cases up : draft.standardBorrow <;> simp [raise, up]

/-- Each token has one part of a draft to change, and leaves the others. -/
theorem take_iff {draft later : Draft} {token : Token} :
    draft.take token = .ok later ↔ Takes draft token later := by
  cases token with
  | path path =>
    rw [take_path_iff]
    simp only [takes_iff, Adds, Raises, Draft.ext_iff, Token.path?, Token.value?]
    grind
  | setting setting text =>
    cases setting
    all_goals simp only [take, set, fill_iff, pace?_iff, cycles?_iff, seed?_iff, path?_iff]
    all_goals simp only [takes_iff, Adds, Raises, Draft.ext_iff, Token.path?, Token.value?]
    all_goals grind
  | flag flag =>
    rw [take, raise_iff]
    cases flag
    all_goals simp only [takes_iff, Adds, Raises, Draft.ext_iff, Token.path?, Token.value?]
    all_goals grind
  | stop command => simp [take, takes_iff]

/-- What a draft holds that has taken tokens. -/
structure Holds (tokens : List Token) (draft : Draft) : Prop where
  goesOn (command : Command) : .stop command ∉ tokens
  rom : Given ReadsPath (paths tokens) draft.rom
  pace : Given ReadsPace (values .hz tokens) draft.pace
  maxCycles : Given ReadsCycles (values .maxCycles tokens) draft.maxCycles
  seed : Given ReadsSeed (values .seed tokens) draft.seed
  dump : Given ReadsPath (values .dump tokens) draft.dump
  hostExtensions : tokens.count (.flag .hostExtensions) = draft.hostExtensions.toNat
  standardBorrow : tokens.count (.flag .standardBorrow) = draft.standardBorrow.toNat

theorem holds_concat {tokens : List Token} {token : Token} {later : Draft} :
    Holds (tokens ++ [token]) later ↔
      ∃ draft, Holds tokens draft ∧ draft.take token = .ok later := by
  have path : paths (tokens ++ [token]) = paths tokens ++ token.path?.toList := by
    cases found : token.path? <;> simp [paths, found]
  have value (setting : Setting) : values setting (tokens ++ [token]) =
      values setting tokens ++ (token.value? setting).toList := by
    cases found : token.value? setting <;> simp [values, found]
  constructor
  -- The draft before the last token is put together from what each of its parts was then.
  · intro held
    obtain ⟨rom, romHeld, romAdded⟩ := given_append.mp (path ▸ held.rom)
    obtain ⟨pace, paceHeld, paceAdded⟩ := given_append.mp (value .hz ▸ held.pace)
    obtain ⟨maxCycles, cyclesHeld, cyclesAdded⟩ :=
      given_append.mp (value .maxCycles ▸ held.maxCycles)
    obtain ⟨seed, seedHeld, seedAdded⟩ := given_append.mp (value .seed ▸ held.seed)
    obtain ⟨dump, dumpHeld, dumpAdded⟩ := given_append.mp (value .dump ▸ held.dump)
    obtain ⟨hostExtensions, hostHeld, hostRaised⟩ := count_concat.mp held.hostExtensions
    obtain ⟨standardBorrow, borrowHeld, borrowRaised⟩ := count_concat.mp held.standardBorrow
    refine ⟨{ rom, pace, maxCycles, seed, dump, hostExtensions, standardBorrow },
      ⟨fun command member => ?_, romHeld, paceHeld, cyclesHeld, seedHeld, dumpHeld, hostHeld,
        borrowHeld⟩,
      take_iff.mpr ⟨fun command stops => ?_, romAdded, paceAdded, cyclesAdded, seedAdded,
        dumpAdded, hostRaised, borrowRaised⟩⟩
    · exact held.goesOn command (List.mem_append_left _ member)
    · exact held.goesOn command (by simp [stops])
  · rintro ⟨draft, held, taken⟩
    have takes := take_iff.mp taken
    exact
      { goesOn := fun command member => by
          rcases List.mem_append.mp member with early | last
          · exact held.goesOn command early
          · exact takes.goesOn command (List.mem_singleton.mp last).symm
        rom := path ▸ given_append.mpr ⟨_, held.rom, takes.rom⟩
        pace := value .hz ▸ given_append.mpr ⟨_, held.pace, takes.pace⟩
        maxCycles := value .maxCycles ▸ given_append.mpr ⟨_, held.maxCycles, takes.maxCycles⟩
        seed := value .seed ▸ given_append.mpr ⟨_, held.seed, takes.seed⟩
        dump := value .dump ▸ given_append.mpr ⟨_, held.dump, takes.dump⟩
        hostExtensions := count_concat.mpr ⟨_, held.hostExtensions, takes.hostExtensions⟩
        standardBorrow := count_concat.mpr ⟨_, held.standardBorrow, takes.standardBorrow⟩ }

theorem holds_nil {draft : Draft} : Holds [] draft ↔ draft = {} := by
  constructor
  · intro held
    have none {Value : Type} {reads : String → Value → Prop} {value : Option Value}
        (given : Given reads [] value) : value = none := by
      cases value with
      | none => rfl
      | some read =>
        obtain ⟨_, ⟨⟩, _⟩ := given
    have down {up : Bool} (counted : 0 = up.toNat) : up = false := by
      cases up with
      | false => rfl
      | true => cases counted
    exact Draft.ext (none held.rom) (none held.pace) (none held.maxCycles) (none held.seed)
      (none held.dump) (down held.hostExtensions) (down held.standardBorrow)
  · rintro rfl
    exact ⟨nofun, rfl, rfl, rfl, rfl, rfl, rfl, rfl⟩

/-- A draft that has taken tokens one after the other holds what they say, in whatever order. -/
theorem foldlM_take_iff {tokens : List Token} {draft : Draft} :
    tokens.foldlM take {} = .ok draft ↔ Holds tokens draft := by
  -- By the last token, as reading goes from the first.
  induction tokens using List.reverseRecOn generalizing draft with
  | nil =>
    rw [holds_nil]
    exact ⟨fun same => (Except.ok.inj same).symm, fun same => congrArg Except.ok same.symm⟩
  | append_singleton tokens token ih =>
    rw [holds_concat, List.foldlM_append]
    simp only [← ih]
    cases tokens.foldlM take {} with
    | error command => exact ⟨nofun, by rintro ⟨_, ⟨⟩, _⟩⟩
    | ok reached =>
      change (reached.take token >>= pure) = _ ↔ _
      simp

theorem finish_eq_run_iff {draft : Draft} {arguments : Arguments} :
    draft.finish = .run arguments ↔ draft.rom = some arguments.rom ∧
      draft.pace.getD .standard = arguments.pace ∧ draft.maxCycles = arguments.maxCycles ∧
      draft.seed = arguments.seed ∧ draft.dump = arguments.dump ∧
      draft.hostExtensions = arguments.dialect.hostExtensions ∧
      draft.standardBorrow = arguments.dialect.standardBorrow := by
  obtain ⟨rom, pace, maxCycles, seed, dump, standardBorrow, hostExtensions⟩ := arguments
  unfold finish
  cases draft.rom with
  | none => simp
  | some found =>
    simp only [Command.run.injEq, Arguments.mk.injEq, Dialect.mk.injEq, Option.some.injEq]
    exact ⟨fun ⟨rom, pace, maxCycles, seed, dump, borrow, host⟩ =>
        ⟨rom, pace, maxCycles, seed, dump, host, borrow⟩,
      fun ⟨rom, pace, maxCycles, seed, dump, host, borrow⟩ =>
        ⟨rom, pace, maxCycles, seed, dump, borrow, host⟩⟩

end Draft

/-- What tokens mean is what a draft that has taken them holds in the end. -/
theorem means_iff {tokens : List Token} {arguments : Arguments} :
    (∀ command, .stop command ∉ tokens) ∧ Means tokens arguments ↔
      ∃ draft, Draft.Holds tokens draft ∧ draft.finish = .run arguments := by
  have hertz (pace : Option Pace) : arguments.pace.hertz = (pace.map Pace.hertz).getD 500 ↔
      pace.getD .standard = arguments.pace := by
    rw [Pace.ext_iff, eq_comm]
    cases pace <;> rfl
  constructor
  · rintro ⟨goesOn, rom, ⟨pace, given, paced⟩, maxCycles, seed, dump, host, borrow⟩
    refine ⟨{ rom := some arguments.rom, pace, maxCycles := arguments.maxCycles
              seed := arguments.seed, dump := arguments.dump
              hostExtensions := arguments.dialect.hostExtensions
              standardBorrow := arguments.dialect.standardBorrow },
      ⟨goesOn, rom, given, maxCycles, seed, dump, host, borrow⟩, ?_⟩
    exact Draft.finish_eq_run_iff.mpr ⟨rfl, (hertz pace).mp paced, rfl, rfl, rfl, rfl, rfl⟩
  · rintro ⟨draft, held, finished⟩
    obtain ⟨rom, pace, maxCycles, seed, dump, host, borrow⟩ :=
      Draft.finish_eq_run_iff.mp finished
    refine ⟨held.goesOn, rom ▸ held.rom, ⟨draft.pace, held.pace, (hertz draft.pace).mpr pace⟩,
      maxCycles ▸ held.maxCycles, seed ▸ held.seed, dump ▸ held.dump, ?_, ?_⟩
    · rw [← host]
      exact held.hostExtensions
    · rw [← borrow]
      exact held.standardBorrow

/-- A command line runs a program if and only if it spells tokens that mean its arguments. -/
theorem Command.read_eq_run_iff {argv : List String} {arguments : Arguments} :
    Command.read argv = .run arguments ↔ ∃ tokens, Spells argv tokens ∧ Means tokens arguments := by
  have cut := Token.cut_ofArguments argv
  constructor
  · intro accepted
    unfold Command.read at accepted
    split at accepted
    -- A failure is a stop that was cut out of the line, or a token that no draft takes.
    next command failed =>
      rcases Draft.foldlM_take_idle failed with stops | idle
      · exact absurd accepted (cut.idle command stops arguments)
      · exact absurd accepted (idle arguments)
    next draft taken =>
      have held := Draft.foldlM_take_iff.mp taken
      obtain ⟨goesOn, means⟩ := means_iff.mpr ⟨draft, held, accepted⟩
      exact ⟨_, cut.spells goesOn, means⟩
  · rintro ⟨tokens, spelled, means⟩
    obtain ⟨draft, held, finished⟩ :=
      means_iff.mp ⟨Token.unstopped_of_spells spelled, means⟩
    rw [Command.read, Token.ofArguments_of_spells spelled, Draft.foldlM_take_iff.mpr held]
    exact finished

/-- Neither the order nor the way in which a value is given matters. -/
example : Command.read ["--seed=7", "pong", "--hz", "700"] =
    Command.read ["--hz=+700", "--seed", "007", "--", "pong"] := by decide +kernel

end Chip8.Headless
