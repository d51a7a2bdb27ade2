import Offside.Proofs.Syntax.Cursor
import Offside.Proofs.Traced

/-!
# Laws of the cursor

A part of the parser on a cursor is compared with a reader from any position. Both have the same
result, and where the parser has come to, its tokens from the cursor on are those that the reader
has not read. The parser keeps what it should, and if it succeeds, it has moved over a certain
number of tokens.

There is one rule for each way to put parts together. In a sequence, the tokens that the first part
has read are not left for the second one; that is what makes fuel last. Two rules are for going
back, from a call that has failed and from line breaks that nothing follows.
-/

namespace Offside

namespace Parser

/-- What parsing keeps. The cursor stays inside the tokens, definitions are only added at the end,
    and there is no mishap. -/
structure Kept (before after : Parser) : Prop where
  tokens : after.tokens = before.tokens
  trail : after.trail = before.trail
  inside : after.position ≤ after.tokens.length
  functions : before.functions <+: after.functions
  mishaps : after.mishaps = before.mishaps

variable {parser before middle after : Parser}

/-- A parser whose cursor is inside the tokens keeps everything if it does nothing. -/
theorem Kept.refl (inside : parser.position ≤ parser.tokens.length) : parser.Kept parser :=
  ⟨rfl, rfl, inside, List.prefix_rfl, rfl⟩

/-- What two steps keep, one after the other, is kept by both together. Each adds its definitions
    and its events at the end. -/
theorem Kept.trans (first : before.Kept middle) (second : middle.Kept after) :
    before.Kept after where
  tokens := second.tokens.trans first.tokens
  trail := second.trail.trans first.trail
  inside := second.inside
  functions := first.functions.trans second.functions
  mishaps := second.mishaps.trans first.mishaps

/-- Since tokens and trail are kept, so is what a reader knows of its surroundings. -/
theorem Kept.context (kept : before.Kept after) : after.context = before.context := by
  rw [Parser.context, Parser.context, kept.tokens, kept.trail]

/-- The first of the tokens that are left is the current token. -/
@[simp]
theorem head?_rest : parser.state.rest.head? = parser.current := by
  simp [state, current, List.head?_drop]

/-- The second of the tokens that are left is the one behind the current token. -/
@[simp]
theorem second_rest : parser.state.rest[1]? = parser.next := by
  simp [state, next, List.getElem?_drop]

/-- As many tokens are left as the cursor has not passed, so limits may be said of either. -/
@[simp]
theorem length_rest : parser.state.rest.length = parser.unread := by
  simp [state, unread]

/-- The line of the current token is found alike by parser and reader, and at the end of the input
    both take that of the last token. -/
theorem currentLine_eq :
    (parser.current.map Token.line).getD parser.context.lastLine = parser.currentLine := by
  unfold currentLine
  cases parser.current <;> rfl

/-- Without a current token no token is left, as the cursor stands at the end. -/
theorem rest_of_none (ended : parser.current = none) : parser.state.rest = [] := by
  have atEnd : parser.tokens.length ≤ parser.position := List.getElem?_eq_none_iff.mp ended
  exact List.drop_eq_nil_of_le atEnd

/-- Where there is a current token, the cursor stands in front of the end. -/
theorem lt_of_current {token : Token} (current : parser.current = some token) :
    parser.position < parser.tokens.length :=
  (List.getElem?_eq_some_iff.mp current).1

/-- Past a current token the cursor stands one further, for the check against the end does not hold
    it back. -/
theorem position_advanced {token : Token} (current : parser.current = some token) :
    parser.advanced.position = parser.position + 1 := by
  rw [advanced, if_pos (lt_of_current current)]

/-- Where the cursor is moved forward, a reader drops a token. At the end of the input neither has
    one. -/
theorem state_advanced :
    parser.advanced.state = { parser.state with rest := parser.state.rest.tail } := by
  unfold advanced
  split
  · simp [state]
  · have atEnd : parser.tokens.drop parser.position = [] := List.drop_eq_nil_of_le (by omega)
    simp [state, atEnd]

/-- The current token is the first of those that are left, and moving the cursor forward leaves the
    others. -/
theorem rest_of_current {token : Token} (current : parser.current = some token) :
    parser.state.rest = token :: parser.advanced.state.rest := by
  rw [← head?_rest] at current
  obtain ⟨rest, tokens⟩ := List.head?_eq_some_iff.mp current
  rw [state_advanced, tokens]
  rfl

/-- Moving the cursor forward keeps everything, at the end of the input as well, where it does not
    move. -/
theorem Kept.advanced (inside : parser.position ≤ parser.tokens.length) :
    parser.Kept parser.advanced := by
  unfold Parser.advanced
  split
  next ahead => exact ⟨rfl, rfl, ahead, List.prefix_rfl, rfl⟩
  next => exact .refl inside

/-- What a production keeps inside is kept outside, and the trail is the old one again. -/
theorem Kept.outside {name : String} (kept : (before.within name).Kept after) :
    before.Kept after.without where
  tokens := kept.tokens
  trail := by simp [without, kept.trail, within]
  inside := kept.inside
  functions := kept.functions
  mishaps := kept.mishaps

/-- Tokens that were read are not left any more, so going ahead by some takes as many off those that
    are left. -/
theorem Kept.unread_add {count : Nat} (kept : before.Kept after)
    (ahead : before.position + count ≤ after.position) : after.unread + count ≤ before.unread := by
  have inside := kept.inside
  unfold unread
  rw [kept.tokens] at inside ⊢
  omega

/-- The cursor is inside the tokens, and at most so many are left. -/
structure Ready (limit : Nat) (parser : Parser) : Prop where
  inside : parser.position ≤ parser.tokens.length
  within : parser.unread ≤ limit

/-- A parser that is ready for some tokens is ready for more of them. -/
theorem Ready.mono {limit most : Nat} (ready : Ready limit parser) (limits : limit ≤ most) :
    Ready most parser :=
  ⟨ready.inside, Nat.le_trans ready.within limits⟩

end Parser

namespace Parsing

open Offside.Parser

variable {α β : Type}

/-- A result of parsing from where `parser` stands, and the result of reading there. Both are the
    same, and after a success the cursor is `least` tokens further or more. -/
inductive Ends (parser : Parser) (least : α → Nat) :
    EStateM.Result Failure Parser α → EStateM.Result Failure Reader.State α → Prop where
  | ok {value : α} {after : Parser} (kept : parser.Kept after)
      (ahead : parser.position + least value ≤ after.position) :
      Ends parser least (.ok value after) (.ok value after.state)
  | error {failure : Failure} {after : Parser} (kept : parser.Kept after) :
      Ends parser least (.error failure after) (.error failure after.state)

/-- Where at most `limit` tokens are left, the parser reads what the reader reads, and if it
    succeeds, at least so many tokens. -/
def Reads (limit : Nat) (least : α → Nat) (parsing : Parsing α) (reader : Reader α) : Prop :=
  ∀ parser : Parser, parser.Ready limit →
    Ends parser least (parsing parser) (reader parser.context parser.state)

/-- The same where the current token is known to be of this kind. -/
def ReadsAt (kind : Option Kind) (limit : Nat) (least : α → Nat) (parsing : Parsing α)
    (reader : Reader α) : Prop :=
  ∀ parser : Parser, parser.Ready limit → parser.current.map Token.kind = kind →
    Ends parser least (parsing parser) (reader parser.context parser.state)

variable {limit most fuel bound : Nat} {least : α → Nat} {total : β → Nat}
  {parsing : Parsing α} {reader : Reader α} {parser middle : Parser}

/-! ## Rules -/

/-- What comes after a first part that has read at least `count` tokens. -/
theorem Ends.after {count : Nat} {result : EStateM.Result Failure Parser α}
    {outcome : EStateM.Result Failure Reader.State α} (kept : parser.Kept middle)
    (ahead : parser.position + count ≤ middle.position)
    (ends : Ends middle (fun value => least value - count) result outcome) :
    Ends parser least result outcome := by
  cases ends with
  | ok further beyond => exact .ok (kept.trans further) (by omega)
  | error further => exact .error (kept.trans further)

/-- One part after the other. The tokens that the first one has read are not left for the second,
    and count for both together. -/
theorem Ends.bind {next : α → Parsing β} {readNext : α → Reader β} (ready : parser.Ready limit)
    (first : Ends parser least (parsing parser) (reader parser.context parser.state))
    (second : ∀ value, least value ≤ limit →
      Reads (limit - least value) (fun result => total result - least value) (next value)
        (readNext value)) :
    Ends parser total ((parsing >>= next) parser)
      ((reader >>= readNext) parser.context parser.state) := by
  change Ends parser total (EStateM.bind parsing next parser)
    (EStateM.bind (reader parser.context) (fun value => readNext value parser.context)
      parser.state)
  unfold EStateM.bind
  generalize parsing parser = result at first
  generalize reader parser.context parser.state = outcome at first
  cases first with
  | ok kept ahead =>
      rename_i value middle
      -- the second part starts where the first one has come to, with fewer tokens left
      have left := kept.unread_add ahead
      have within := ready.within
      have later := second value (by omega) middle ⟨kept.inside, by omega⟩
      rw [kept.context] at later
      exact later.after kept ahead
  | error kept => exact .error kept

/-- A sequence reads what the two readers in sequence read. The tokens that the first part has read
    at least are not left for the second one, whose limit is lower. -/
theorem Reads.bind {next : α → Parsing β} {readNext : α → Reader β}
    (first : Reads limit least parsing reader)
    (second : ∀ value, least value ≤ limit →
      Reads (limit - least value) (fun result => total result - least value) (next value)
        (readNext value)) :
    Reads limit total (parsing >>= next) (reader >>= readNext) :=
  fun parser ready => (first parser ready).bind ready second

/-- What needs more tokens than there are does not succeed, so nothing comes after it. -/
theorem Reads.vain (first : Reads limit (fun _ => limit + 1) parsing reader)
    {next : α → Parsing β} {readNext : α → Reader β} :
    Reads limit total (parsing >>= next) (reader >>= readNext) :=
  first.bind fun _ within => absurd within (Nat.not_succ_le_self limit)

/-- The same holds where the current token is known to be of some kind, as far as the first part is
    concerned. -/
theorem ReadsAt.bind {kind : Option Kind} {next : α → Parsing β} {readNext : α → Reader β}
    (first : ReadsAt kind limit least parsing reader)
    (second : ∀ value, least value ≤ limit →
      Reads (limit - least value) (fun result => total result - least value) (next value)
        (readNext value)) :
    ReadsAt kind limit total (parsing >>= next) (reader >>= readNext) :=
  fun parser ready facing => (first parser ready facing).bind ready second

/-- What is read of so many tokens, with so many at least, is read of fewer tokens, with fewer of
    them at least. -/
theorem Reads.mono (reads : Reads most least parsing reader) {fewer : α → Nat}
    (limits : limit ≤ most) (leasts : ∀ value, fewer value ≤ least value) :
    Reads limit fewer parsing reader := by
  intro parser ready
  have ends := reads parser (ready.mono limits)
  generalize parsing parser = result at ends
  generalize reader parser.context parser.state = outcome at ends
  cases ends with
  | ok kept ahead =>
      rename_i value after
      have := leasts value
      exact .ok kept (by omega)
  | error kept => exact .error kept

/-- A known kind may be forgotten: what is read whatever comes first is read if it is known. -/
theorem Reads.at (reads : Reads limit least parsing reader) (kind : Option Kind) :
    ReadsAt kind limit least parsing reader :=
  fun parser ready _ => reads parser ready

/-- What is read of so many tokens is read of fewer, and as many of them at least as before. -/
theorem Reads.below (reads : Reads most least parsing reader) (limits : limit ≤ most) :
    Reads limit least parsing reader :=
  reads.mono limits fun _ => Nat.le_refl _

/-- How many tokens are read may be forgotten where it is of no use for what comes after. -/
theorem Reads.anyway (reads : Reads limit least parsing reader) :
    Reads limit (fun _ => 0) parsing reader :=
  reads.mono (Nat.le_refl _) fun _ => Nat.zero_le _

/-- A reader with a bound may have any that is no less than the number of tokens, if no bound
    makes a difference where no token is left. -/
theorem Reads.bounded {readWithin : Nat → Reader α} {ended : Reader α}
    (atEnd : ∀ bound context state, state.rest = [] →
      readWithin bound context state = ended context state)
    (step : ∀ bound, limit ≤ bound + 1 → Reads limit least parsing (readWithin (bound + 1)))
    (bounded : limit ≤ bound) : Reads limit least parsing (readWithin bound) := by
  cases bound with
  | zero =>
      intro parser ready
      have none : parser.unread = 0 := Nat.le_zero.mp (Nat.le_trans ready.within bounded)
      have empty : parser.state.rest = [] := List.eq_nil_of_length_eq_zero (length_rest.trans none)
      rw [atEnd 0 _ _ empty, ← atEnd 1 _ _ empty]
      exact step 0 (Nat.le_succ_of_le bounded) parser ready
  | succ bound => exact step bound bounded

/-- Returning a value reads no token, on either side, and the value is the same. -/
theorem reads_pure {value : α} (nothing : least value = 0) :
    Reads limit least (pure value) (pure value) :=
  fun _ ready => .ok (.refl ready.inside) (by omega)

/-- Looking around moves nothing. A reader sees the same if it finds the same from the tokens that
    are left. -/
theorem reads_look {view : Parser → α} (sees : ∀ parser : Parser,
      reader parser.context parser.state = .ok (view parser) parser.state) :
    Reads limit (fun _ => 0) (look view) reader := by
  intro parser ready
  rw [sees]
  exact .ok (.refl ready.inside) (Nat.le_refl _)

/-- The line of the current token is seen alike, at the end of the input included. -/
theorem reads_currentLine : Reads limit (fun _ => 0) (look currentLine) Reader.currentLine :=
  reads_look fun parser => by rw [Reader.currentLine_apply, head?_rest, currentLine_eq]

/-- The current token is seen alike, and so is that there is none. -/
theorem reads_current : Reads limit (fun _ => 0) (look current) Reader.current :=
  reads_look fun parser => by rw [Reader.current_apply, head?_rest]

/-- The kind of the token behind the current one is seen alike. -/
theorem reads_nextKind : Reads limit (fun _ => 0) nextKind Reader.nextKind :=
  reads_look fun parser => by rw [Reader.nextKind_apply, second_rest]

/-- Looking at the kind of the current token, which is known from then on. -/
theorem Ends.currentKind {next : Option Kind → Parsing α} {readNext : Option Kind → Reader α}
    (each : ∀ kind, middle.current.map Token.kind = kind →
      Ends parser least (next kind middle) (readNext kind middle.context middle.state)) :
    Ends parser least ((currentKind >>= next) middle)
      ((Reader.currentKind >>= readNext) middle.context middle.state) := by
  rw [Reader.bind_of_ok Reader.currentKind_apply, head?_rest]
  exact each _ rfl

/-- The kind of the current token is seen alike, and what goes on from there may rely on this
    kind. -/
theorem reads_currentKind {next : Option Kind → Parsing α} {readNext : Option Kind → Reader α}
    (each : ∀ kind, ReadsAt kind limit least (next kind) (readNext kind)) :
    Reads limit least (currentKind >>= next) (Reader.currentKind >>= readNext) :=
  fun parser ready => .currentKind fun kind facing => each kind parser ready facing

/-- Whether a call comes next is seen alike, by the kinds of two tokens. -/
theorem reads_atCall : Reads limit (fun _ => 0) atCall Reader.atCall := by
  refine reads_currentKind fun kind => Reads.at (reads_nextKind.bind fun next _ => ?_) kind
  cases kind <;> cases next <;> exact reads_pure rfl

/-- A reader that looks at the unread tokens for a bound goes on like a parser that needs none, with
    their number as the limit. -/
theorem reads_unread {readNext : List Token → Reader α}
    (each : ∀ rest : List Token, rest.length ≤ limit →
      Reads rest.length least parsing (readNext rest)) :
    Reads limit least parsing (Reader.unread >>= readNext) := by
  intro parser ready
  rw [Reader.bind_of_ok Reader.unread_apply]
  have within := ready.within
  rw [← length_rest] at within
  exact each _ within parser ⟨ready.inside, Nat.le_of_eq length_rest.symm⟩

/-- Failing with a fault on a line fails with the same report on both sides, since the trails are
    the same. -/
theorem reads_failOn (line : Nat) (fault : SyntaxFault) :
    Reads limit least (failOn line fault) (Reader.failOn line fault) :=
  fun _ ready => .error (.refl ready.inside)

/-- Failing with a fault at the current token fails with the same report on both sides. -/
theorem reads_fail (fault : SyntaxFault) :
    Reads limit least (fail fault) (Reader.fail fault) :=
  reads_currentLine.bind fun line _ => reads_failOn line fault

/-- Failing because the current token is of none of the kinds expected fails with the same report on
    both sides. -/
theorem reads_unexpected (kinds : List Kind) :
    Reads limit least (unexpected kinds) (Reader.unexpected kinds) :=
  reads_current.bind fun _ _ => reads_fail _

/-- Where there is a current token, it is passed, and so one token at least has been read. -/
theorem readsAt_advance (kind : Kind) :
    ReadsAt (some kind) limit (fun _ => 1) advance Reader.advance := by
  intro parser ready facing
  obtain ⟨token, current, -⟩ := Option.map_eq_some_iff.mp facing
  have moved := position_advanced current
  have ends : Ends parser (fun _ => 1) (.ok () parser.advanced) (.ok () parser.advanced.state) :=
    .ok (.advanced ready.inside) (Nat.le_of_eq moved.symm)
  rwa [state_advanced] at ends

/-- Passing the current token where there may be none reads alike, but nothing is said about how
    many tokens are read. -/
theorem reads_advance : Reads limit (fun _ => 0) advance Reader.advance := by
  intro parser ready
  have ends : Ends parser (fun _ => 0) (.ok () parser.advanced) (.ok () parser.advanced.state) := by
    refine .ok (.advanced ready.inside) ?_
    unfold advanced
    split <;> simp
  rwa [state_advanced] at ends

/-- A sequence succeeds if both of its parts do, the second one from where the first has come to. -/
theorem bind_ok_iff {next : α → Parsing β} {after : Parser} {value : β} :
    (parsing >>= next) parser = .ok value after ↔
      ∃ first middle, parsing parser = .ok first middle ∧ next first middle = .ok value after := by
  rw [Traced.bind_apply]
  cases parsing parser with
  | ok first middle =>
      constructor
      · exact fun run => ⟨first, middle, rfl, run⟩
      · rintro ⟨_, _, same, run⟩
        cases same
        exact run
  | error failure middle => simp

/-! ## Taking tokens -/

/-- Asking for the kind of the current token succeeds and changes nothing. -/
theorem currentKind_apply :
    currentKind parser = .ok (parser.current.map Token.kind) parser := rfl

/-- At the end of the input no token is taken, whatever kinds are admitted. -/
theorem takeIf?_of_none (admitted : Kind → Bool) (ended : parser.current = none) :
    takeIf? admitted parser = .ok none parser := by
  rw [takeIf?, Traced.bind_apply, currentKind_apply, ended]
  rfl

/-- A current token is taken, the cursor stands behind it, and none is made up. -/
theorem take_of_some {token : Token} (current : parser.current = some token) :
    take parser = .ok token parser.advanced := by
  have seen : look Parser.current parser = .ok (some token) parser :=
    congrArg (EStateM.Result.ok · parser) current
  rw [take, Traced.bind_apply, seen]
  rfl

/-- At the end of the input there is nothing to take. A token is made up there and noted as a
    mishap, and the cursor stays where it is. -/
theorem take_of_none (ended : parser.current = none) :
    take parser = .ok ⟨.illegal, "", parser.currentLine⟩
      { parser with mishaps := parser.mishaps ++ [.fabricated] } := by
  have seen : look Parser.current parser = .ok none parser :=
    congrArg (EStateM.Result.ok · parser) ended
  have atEnd : ¬ parser.position < parser.tokens.length :=
    Nat.not_lt.mpr (List.getElem?_eq_none_iff.mp ended)
  let noted : Parser := { parser with mishaps := parser.mishaps ++ [.fabricated] }
  have stays : noted.advanced = noted := if_neg atEnd
  rw [take, Traced.bind_apply, seen]
  change EStateM.Result.ok (⟨.illegal, "", noted.currentLine⟩ : Token) noted.advanced = _
  rw [stays]
  rfl

/-- Taking keeps what parsing keeps exactly where there is a token. This is what a made-up token
    changes: it shows in the mishaps, which no part of the parser takes back. -/
theorem take_kept_iff (inside : parser.position ≤ parser.tokens.length) :
    (∃ token after, take parser = .ok token after ∧ parser.Kept after) ↔
      parser.current.isSome = true := by
  cases current : parser.current with
  | none =>
      rw [take_of_none current]
      constructor
      · rintro ⟨token, after, run, kept⟩
        cases run
        exact absurd kept.mishaps (by simp)
      · simp
  | some token =>
      rw [take_of_some current]
      exact ⟨fun _ => rfl, fun _ => ⟨token, parser.advanced, rfl, .advanced inside⟩⟩

/-- Without fuel parsing fails where it stands, and that is noted as the other mishap. -/
theorem exhausted_apply :
    (exhausted : Parsing α) parser =
      .error (.parse ⟨parser.trail, parser.currentLine,
          (SyntaxFault.expected [] parser.current).message⟩)
        { parser with mishaps := parser.mishaps ++ [.exhausted] } := rfl

/-- A current token is taken if its kind is admitted, and left alone otherwise. -/
theorem takeIf?_of_some (admitted : Kind → Bool) {token : Token}
    (current : parser.current = some token) :
    takeIf? admitted parser =
      if admitted token.kind then .ok (some token) parser.advanced else .ok none parser := by
  rw [takeIf?, Traced.bind_apply, currentKind_apply, current]
  dsimp only [Option.map_some]
  split
  · rw [Traced.bind_apply, take_of_some current]
    rfl
  · rfl

/-- To pass a token is to take it and to let it go. -/
theorem advanceIf_eq (kind : Kind) :
    advanceIf kind = do return (← takeIf? (· == kind)).isSome := by
  funext parser
  rw [advanceIf, Traced.bind_apply, Traced.bind_apply, currentKind_apply]
  cases current : parser.current with
  | none =>
      rw [takeIf?_of_none _ current]
      rfl
  | some token =>
      rw [takeIf?_of_some _ current]
      simp only [Option.map_some, Option.some.injEq, beq_iff_eq]
      split <;> rfl

/-- An optional token is taken on both sides or on neither. One token has been read if it is
    taken. -/
theorem reads_takeIf? (admitted : Kind → Bool) :
    Reads limit (fun taken => if taken.isSome then 1 else 0) (takeIf? admitted)
      (Reader.accept? admitted) := by
  intro parser ready
  rw [Reader.accept?_apply]
  cases current : parser.current with
  | none =>
      rw [takeIf?_of_none admitted current, rest_of_none current]
      exact .ok (.refl ready.inside) (Nat.le_refl _)
  | some token =>
      have moved : { parser.state with rest := parser.advanced.state.rest } =
          parser.advanced.state := by
        rw [state_advanced]
      rw [takeIf?_of_some admitted current, rest_of_current current]
      dsimp only
      split
      · rw [moved]
        exact .ok (.advanced ready.inside) (Nat.le_of_eq (position_advanced current).symm)
      · exact .ok (.refl ready.inside) (Nat.le_refl _)

/-- To demand a token of some kinds is to take it if it is of one of them and to fail otherwise. The
    token is not made up, since its kind has been seen before. -/
theorem expectAny_eq (kinds : List Kind) :
    expectAny kinds = (do
      match ← takeIf? (fun kind => kinds.contains kind) with
      | some token => return token
      | none => unexpected kinds) := by
  unfold expectAny takeIf?
  rw [bind_assoc]
  refine bind_congr fun kind => ?_
  cases kind with
  | none => rfl
  | some kind =>
      dsimp only
      split <;> simp

/-- A token of some kinds is demanded alike, and one token has been read if it is there. -/
theorem reads_expectAny (kinds : List Kind) :
    Reads limit (fun _ => 1) (expectAny kinds) (Reader.expectAny kinds) := by
  rw [expectAny_eq]
  refine (reads_takeIf? _).bind fun taken _ => ?_
  cases taken with
  | none => exact reads_unexpected kinds
  | some token => exact reads_pure rfl

/-- A token of one kind is demanded alike, and one token has been read if it is there. -/
theorem reads_expect (kind : Kind) :
    Reads limit (fun _ => 1) (expect kind) (Reader.expect kind) :=
  reads_expectAny [kind]

/-- A token of one kind that is passed if it comes next is passed on both sides or on neither. -/
theorem reads_advanceIf (kind : Kind) :
    Reads limit (fun passed => if passed then 1 else 0) (advanceIf kind)
      (Reader.passes kind) := by
  rw [advanceIf_eq]
  refine (reads_takeIf? _).bind fun taken _ => reads_pure ?_
  cases taken <;> rfl

/-- Line breaks are skipped alike, one by one by the parser and all at once by the reader. The
    induction is on the fuel, of which there is more than tokens are left. -/
theorem reads_skipNewlines (enough : limit < fuel) :
    Reads limit (fun _ => 0) (skipNewlines fuel) Reader.skipNewlines := by
  induction fuel generalizing limit with
  | zero => omega
  | succ fuel ih =>
      rw [skipNewlines, Reader.skipNewlines_eq]
      refine (reads_advanceIf _).bind fun passed within => ?_
      cases passed with
      | true => exact (ih (by simp at within ⊢; omega)).anyway
      | false => exact reads_pure rfl

/-- A production ends with the trail that it has started with, whether it succeeds or fails: the
    name is put on it for the inner part and taken off again. -/
theorem within_apply (name : String) :
    within name parsing parser =
      match parsing (parser.within name) with
      | .ok value after => .ok value after.without
      | .error failure after => .error failure after.without := by
  have run : within name parsing parser =
      (try parsing finally modify Parser.without : Parsing α) (parser.within name) := rfl
  rw [run]
  cases inside : parsing (parser.within name) <;>
    simp only [tryFinally, tryFinally', Functor.map, EStateM.map, inside] <;> rfl

/-- A production reads what the reader in the production reads. The name is put on the trail and
    taken off again by one, and only seen further in by the other. -/
theorem Reads.within (reads : Reads limit least parsing reader) (name : String) :
    Reads limit least (within name parsing) (Reader.production name reader) := by
  intro parser ready
  have ends := reads (parser.within name) ⟨ready.inside, ready.within⟩
  rw [within_apply, Reader.production_apply]
  change Ends _ _ (parsing (parser.within name))
    (reader { parser.context with trail := parser.context.trail ++ [name] } parser.state) at ends
  generalize parsing (parser.within name) = result at ends
  generalize reader _ parser.state = outcome at ends
  cases ends with
  | ok kept ahead => exact .ok kept.outside ahead
  | error kept => exact .error kept.outside

/-! ## Going back -/

/-- The cursor is set back to where it was, with everything else as it has become since then. -/
theorem rewind_alike (inside : parser.position ≤ parser.tokens.length)
    (kept : parser.Kept middle) :
    Reader.rewind parser.state.rest middle.context middle.state =
        .ok () (middle.rewound parser.position).state ∧
      parser.Kept (middle.rewound parser.position) := by
  have within := kept.inside
  constructor
  · have run : Reader.rewind parser.state.rest middle.context middle.state =
        .ok () ⟨parser.state.rest, middle.functions, middle.events.push
          (.rewound (middle.tokens.length - middle.state.rest.length)
            (middle.tokens.length - parser.state.rest.length))⟩ := rfl
    have start : middle.tokens.length - middle.state.rest.length = middle.position := by
      rw [length_rest]
      unfold unread
      omega
    have target : middle.tokens.length - parser.state.rest.length = parser.position := by
      rw [length_rest, kept.tokens]
      unfold unread
      omega
    rw [run, start, target]
    unfold state rewound
    rw [kept.tokens]
  · exact ⟨kept.tokens, kept.trail, kept.tokens ▸ inside, kept.functions, kept.mishaps⟩

/-- An attempt that fails is followed by its handler, which knows where the attempt started. -/
theorem Reads.rescue (attempt : Reads limit least parsing reader)
    {handler : Nat → Failure → Parsing α} {readHandler : List Token → Failure → Reader α}
    (handled : ∀ (parser middle : Parser) failure, parser.Ready limit → parser.Kept middle →
      Ends parser least (handler parser.position failure middle)
        (readHandler parser.state.rest failure middle.context middle.state)) :
    Reads limit least
      (do let checkpoint ← look position; tryCatch parsing (handler checkpoint))
      (do let checkpoint ← Reader.unread; tryCatch reader (readHandler checkpoint)) := by
  intro parser ready
  have ends := attempt parser ready
  rw [Reader.bind_of_ok Reader.unread_apply, Reader.tryCatch_apply]
  change Ends parser least (EStateM.tryCatch parsing (handler parser.position) parser) _
  unfold EStateM.tryCatch
  generalize parsing parser = result at ends
  generalize reader parser.context parser.state = outcome at ends
  cases ends with
  | ok kept ahead => exact .ok kept ahead
  | error kept =>
      rename_i failure middle
      have rescued := handled parser middle failure ready kept
      rw [kept.context] at rescued
      exact rescued

/-- A probe is followed by what knows where the probe started, as a position on one side and as a
    list of tokens on the other. -/
theorem Reads.probe {next : Nat → Parsing α} {readNext : List Token → Reader α}
    {probe : Parsing Unit} {readProbe : Reader Unit}
    (probes : Reads limit (fun _ => 0) probe readProbe)
    (each : ∀ parser middle : Parser, parser.Ready limit → middle.Ready limit →
      parser.Kept middle → parser.position + 0 ≤ middle.position →
        Ends parser least (next parser.position middle)
          (readNext parser.state.rest middle.context middle.state)) :
    Reads limit least (do let checkpoint ← look position; probe; next checkpoint)
      (do let checkpoint ← Reader.unread; readProbe; readNext checkpoint) := by
  intro parser ready
  have ends := probes parser ready
  rw [Reader.bind_of_ok Reader.unread_apply]
  change Ends parser least (EStateM.bind probe (fun _ => next parser.position) parser)
    (EStateM.bind (readProbe parser.context)
      (fun _ => readNext parser.state.rest parser.context) parser.state)
  unfold EStateM.bind
  generalize probe parser = result at ends
  generalize readProbe parser.context parser.state = outcome at ends
  cases ends with
  | ok kept ahead =>
      rename_i passed middle
      have left : middle.unread ≤ limit := Nat.le_trans (kept.unread_add ahead) ready.within
      have later := each parser middle ready ⟨kept.inside, left⟩ kept ahead
      rw [kept.context] at later
      exact later
  | error kept => exact .error kept

end Parsing

end Offside
