import LineBasic.Proofs.Token.Reader

/-!
# Readers that fail in time

A reader is attentive if it looks no further than one token ahead, and fails as soon as what it has
taken cannot be completed any more. Attentive readers can be put in a row: what has to hold in front
of one of them is what may follow the one before it.

An error of such a reader is about the first token behind which nothing can be saved, and its
columns are those of this token; or the tokens are a beginning of something that can be read, and
the columns are those of their end.

Results:
1. `Refusal`: why tokens are refused, and what is common to these errors.
2. `AttentiveAt.bind`, `Attentive.bind`: attentive readers in a row.
3. `attentive_expect`: readers that take one token.
4. `Reader.rejected_of_attentive`: what an error of an attentive reader is about, blanks included.
-/

namespace LineBasic

/-! ## 1. Refusals -/

/-- Why a reader refuses some tokens, at the first of them or for want of any. -/
inductive Refusal : Error → List Token → Prop
  | expected (what : String) (rest : List Token) : Refusal (.expected what) rest
  | unbalanced (rest : List Token) : Refusal .unbalanced rest
  | unreadableNumeral (rest : List Token) : Refusal .unreadableNumeral rest
  | numeralOverflow (numeral : String) (rest : List Token) :
      Refusal (.numeralOverflow numeral) rest
  | invalidLineNumber (rest : List Token) : Refusal .invalidLineNumber rest
  | lineNumberOverflow (rest : List Token) : Refusal .lineNumberOverflow rest
  | illegalOperator (t : Token) (rest : List Token) : Refusal (.illegalOperator t.text) (t :: rest)
  | missingOperator (what : String) : Refusal (.illegalOperator what) []
  | invalidStatement (t : Token) (rest : List Token) :
      Refusal (.invalidStatement t.text) (t :: rest)
  | missingStatement (what : String) : Refusal (.invalidStatement what) []
  | extraneous (t : Token) (rest : List Token) : Refusal (.extraneous t.text) (t :: rest)

namespace Refusal

variable {e : Error} {t : Token} {rest : List Token}

theorem kind_eq (refusal : Refusal e rest) : e.code.kind = .reading := by
  cases refusal <;> rfl

theorem line_eq_none (refusal : Refusal e rest) : e.line = none := by
  cases refusal <;> rfl

/-- The errors that name the offending token. -/
def namesToken : Code → Bool
  | .illegalOperator | .invalidStatement | .extraneousToken => true
  | _ => false

theorem detail_eq (refusal : Refusal e (t :: rest)) (names : namesToken e.code = true) :
    e.detail = t.text := by
  cases refusal <;> first | rfl | cases names

/-- A token that is no line number is refused. -/
theorem of_lineNumber (refused : t.lineNumber = .error e) (rest : List Token) :
    Refusal e rest := by
  rcases Token.lineNumber_error refused with rfl | rfl
  · exact .lineNumberOverflow rest
  · exact .invalidLineNumber rest

end Refusal

namespace Reader

variable {α β : Type} {before ends mid : List Token → Prop} {reader : Reader α}
  {tokens rest read : List Token} {value : α} {fault : Fault}

/-! ## 2. Attentive readers -/

/-- What comes second matters only on what the first leaves. -/
theorem bind_congr {f g : α → Reader β}
    (same : ∀ value rest, reader tokens = .ok (value, rest) → f value rest = g value rest) :
    (reader >>= f) tokens = (reader >>= g) tokens := by
  cases known : reader tokens with
  | error fault => rw [bind_of_error known, bind_of_error known]
  | ok out => rw [bind_of_ok known, bind_of_ok known, same _ _ known]

/-- A reader takes what it has read in the same way whatever follows, if that begins with the same
token or may stand at its end. -/
def Takes (reader : Reader α) (ends : List Token → Prop) (read : List Token) (value : α)
    (rest : List Token) : Prop :=
  ∀ next, next.head? = rest.head? ∨ ends next → reader (read ++ next) = .ok (value, next)

/-- Some tokens can be put behind those that have been read, so that the reader succeeds in front of
all that may stand at its end. -/
def Completes (reader : Reader α) (ends : List Token → Prop) (read : List Token) : Prop :=
  ∃ more value, (∀ t ∈ more, t.isBlank = false) ∧
    ∀ next, ends next → reader (read ++ (more ++ next)) = .ok (value, next)

/-- A reader fails at a token: there is a reason, it fails there whatever follows the token, and in
front of the token all could still have turned out well. -/
structure Stops (reader : Reader α) (ends : List Token → Prop) (read : List Token) (fault : Fault) :
    Prop where
  refusal : Refusal fault.error fault.rest
  same : ∀ next, next.head? = fault.rest.head? → reader (read ++ next) = .error ⟨fault.error, next⟩
  completes : reader.Completes ends read

/-- A reader looks no further than one token ahead on some tokens, and fails in time. -/
structure AttentiveAt (ends : List Token → Prop) (reader : Reader α) (tokens : List Token) :
    Prop where
  ok : ∀ value rest, reader tokens = .ok (value, rest) →
    ∃ read, tokens = read ++ rest ∧ reader.Takes ends read value rest
  error : ∀ fault, reader tokens = .error fault →
    ∃ read, tokens = read ++ fault.rest ∧ reader.Stops ends read fault

/-- A reader can stand behind one that has to be followed by what satisfies `before`: there is
something for it to read in such a place, and where it reads nothing it leaves the same place. -/
structure Joins (before ends : List Token → Prop) (reader : Reader α) : Prop where
  can : ∃ more value, (∀ t ∈ more, t.isBlank = false) ∧
    ∀ next, ends next → before (more ++ next) ∧ reader (more ++ next) = .ok (value, next)
  idle : ∀ value tokens, reader tokens = .ok (value, tokens) → ends tokens → before tokens

/-- A reader that is attentive on all tokens, and may stand behind another. -/
structure Attentive (before ends : List Token → Prop) (reader : Reader α) : Prop
    extends Joins before ends reader where
  on : ∀ tokens, AttentiveAt ends reader tokens

theorem AttentiveAt.mono {stricter : List Token → Prop} (attentive : AttentiveAt ends reader tokens)
    (le : ∀ next, stricter next → ends next) : AttentiveAt stricter reader tokens where
  ok value rest done := by
    obtain ⟨read, split, takes⟩ := attentive.ok value rest done
    exact ⟨read, split, fun next follows => takes next (follows.imp_right (le next))⟩
  error fault failed := by
    obtain ⟨read, split, refusal, same, more, value, solid, completes⟩ := attentive.error fault failed
    exact ⟨read, split, refusal, same, more, value, solid, fun next h => completes next (le next h)⟩

/-- What is left is no more than there was. -/
theorem AttentiveAt.length_le (attentive : AttentiveAt ends reader tokens)
    (done : reader tokens = .ok (value, rest)) : rest.length ≤ tokens.length := by
  obtain ⟨read, rfl, _⟩ := attentive.ok value rest done
  rw [List.length_append]
  exact Nat.le_add_left _ _

/-- A reader that goes on as another does behind a first token. -/
theorem AttentiveAt.cons {t : Token} (other : Reader α)
    (goesOn : ∀ tokens, reader (t :: tokens) = other tokens)
    (attentive : AttentiveAt ends other tokens) : AttentiveAt ends reader (t :: tokens) where
  ok value rest done := by
    rw [goesOn] at done
    obtain ⟨read, rfl, takes⟩ := attentive.ok value rest done
    exact ⟨t :: read, rfl, fun next follows => (goesOn _).trans (takes next follows)⟩
  error fault failed := by
    rw [goesOn] at failed
    obtain ⟨read, split, refusal, same, more, value, solid, completes⟩ :=
      attentive.error fault failed
    exact ⟨t :: read, by rw [split, List.cons_append], refusal,
      fun next first => (goesOn _).trans (same next first),
      more, value, solid, fun next h => (goesOn _).trans (completes next h)⟩

/-- A reader that takes nothing here, wherever the same token follows or it may end. -/
theorem AttentiveAt.ofIdle (idle : ∀ next, next.head? = tokens.head? ∨ ends next →
    reader next = .ok (value, next)) : AttentiveAt ends reader tokens where
  ok found rest done := by
    rw [idle tokens (.inl rfl)] at done
    cases done
    exact ⟨[], rfl, idle⟩
  error fault failed := by
    rw [idle tokens (.inl rfl)] at failed
    cases failed

/-- A reader that fails at once, but has something to read in place of these tokens. -/
theorem AttentiveAt.ofFail {e : Error} (refusal : Refusal e tokens)
    (fails : ∀ next, next.head? = tokens.head? → reader next = .error ⟨e, next⟩)
    (completes : reader.Completes ends []) : AttentiveAt ends reader tokens where
  ok found rest done := by
    rw [fails tokens rfl] at done
    cases done
  error fault failed := by
    rw [fails tokens rfl] at failed
    cases failed
    exact ⟨[], rfl, refusal, fails, completes⟩

theorem Joins.completes (joins : Joins before ends reader) : reader.Completes ends [] := by
  obtain ⟨more, value, solid, can⟩ := joins.can
  exact ⟨more, value, solid, fun next h => (can next h).2⟩

/-- Where something has been read, the next token is the same whatever comes behind it. -/
theorem head?_append_eq {next : List Token} (follows : next.head? = rest.head?) :
    (read ++ next).head? = (read ++ rest).head? := by
  rw [List.head?_append, List.head?_append, follows]

/-- A reader that goes on as another does in front of one token, and there takes it. -/
theorem AttentiveAt.ofHead {other : Reader α} (attentive : AttentiveAt ends other tokens)
    (same : ∀ next, next.head? = tokens.head? → reader next = other next)
    (takes : ∀ value, other tokens ≠ .ok (value, tokens))
    (completes : reader.Completes ends []) : AttentiveAt ends reader tokens where
  ok value rest done := by
    rw [same tokens rfl] at done
    obtain ⟨read, rfl, goesOn⟩ := attentive.ok value rest done
    cases read with
    | nil => exact absurd done (takes value)
    | cons t read =>
      refine ⟨t :: read, rfl, fun next follows => ?_⟩
      rw [same (t :: read ++ next) rfl, goesOn next follows]
  error fault failed := by
    rw [same tokens rfl] at failed
    obtain ⟨read, rfl, refusal, again, more, value, solid, can⟩ := attentive.error fault failed
    cases read with
    | nil =>
      exact ⟨[], rfl, refusal, fun next first => (same _ first).trans (again next first), completes⟩
    | cons t read =>
      refine ⟨t :: read, rfl, refusal, fun next first => ?_,
        more, value, solid, fun next atEnd => ?_⟩
      · rw [same (t :: read ++ next) rfl, again next first]
      · rw [same (t :: read ++ (more ++ next)) rfl, can next atEnd]

/-- Two readers in turn. The second is attentive on what the first leaves. -/
theorem AttentiveAt.bind {next : α → Reader β} (first : AttentiveAt mid reader tokens)
    (second : ∀ value rest, reader tokens = .ok (value, rest) → AttentiveAt ends (next value) rest)
    (joins : ∀ value, Joins mid ends (next value)) : AttentiveAt ends (reader >>= next) tokens where
  ok value rest done := by
    obtain ⟨between, left, readFirst, readSecond⟩ := bind_eq_ok_iff.1 done
    obtain ⟨read, rfl, takes⟩ := first.ok between left readFirst
    obtain ⟨read', rfl, takes'⟩ := (second between left readFirst).ok value rest readSecond
    refine ⟨read ++ read', by rw [List.append_assoc], fun tail follows => ?_⟩
    have behind := takes' tail follows
    -- What follows the first reader is the same, or the second one has read nothing at its end.
    have place : (read' ++ tail).head? = (read' ++ rest).head? ∨ mid (read' ++ tail) := by
      rcases follows with same | atEnd
      · exact .inl (head?_append_eq same)
      · cases read' with
        | nil => exact .inr ((joins between).idle value tail behind atEnd)
        | cons t read' => exact .inl rfl
    rw [List.append_assoc, bind_of_ok (takes _ place), behind]
  error fault failed := by
    cases known : reader tokens with
    | error fault' =>
      rw [bind_of_error known] at failed
      cases failed
      obtain ⟨read, split, refusal, same, more, value, solid, completes⟩ := first.error _ known
      obtain ⟨more', value', solid', can⟩ := (joins value).can
      refine ⟨read, split, refusal, fun tail start => bind_of_error (same tail start),
        more ++ more', value', fun t mem => (List.mem_append.1 mem).elim (solid t) (solid' t),
        fun tail atEnd => ?_⟩
      obtain ⟨place, done⟩ := can tail atEnd
      rw [List.append_assoc more, bind_of_ok (completes _ place), done]
    | ok out =>
      obtain ⟨between, left⟩ := out
      rw [bind_of_ok known] at failed
      obtain ⟨read, rfl, takes⟩ := first.ok between left known
      obtain ⟨read', rfl, refusal, same, more, value, solid, completes⟩ :=
        (second between left known).error fault failed
      refine ⟨read ++ read', by rw [List.append_assoc], refusal, fun tail start => ?_, ?_⟩
      · rw [List.append_assoc, bind_of_ok (takes _ (.inl (head?_append_eq start))), same tail start]
      · cases read' with
        | nil =>
          -- The second reader has failed at once, so that it may read something else instead.
          obtain ⟨more', value', solid', can⟩ := (joins between).can
          refine ⟨more', value', solid', fun tail atEnd => ?_⟩
          obtain ⟨place, done⟩ := can tail atEnd
          rw [List.append_nil, bind_of_ok (takes _ (.inr place)), done]
        | cons t read' =>
          refine ⟨more, value, solid, fun tail atEnd => ?_⟩
          have done := takes (t :: read' ++ (more ++ tail)) (.inl rfl)
          rw [List.append_assoc, bind_of_ok done, completes tail atEnd]

/-- Readers in a row can stand where the first can. -/
theorem Joins.bind {next : α → Reader β} (first : Joins before mid reader)
    (second : ∀ value, Joins mid ends (next value))
    (suffixed : ∀ tokens, AttentiveAt mid reader tokens)
    (suffixed' : ∀ value tokens, AttentiveAt ends (next value) tokens) :
    Joins before ends (reader >>= next) where
  can := by
    obtain ⟨more, value, solid, can⟩ := first.can
    obtain ⟨more', value', solid', can'⟩ := (second value).can
    refine ⟨more ++ more', value', fun t mem => (List.mem_append.1 mem).elim (solid t) (solid' t),
      fun tail atEnd => ?_⟩
    obtain ⟨place, done⟩ := can' tail atEnd
    obtain ⟨place', done'⟩ := can _ place
    rw [List.append_assoc]
    exact ⟨place', (bind_of_ok done').trans done⟩
  idle value tokens done atEnd := by
    obtain ⟨between, left, readFirst, readSecond⟩ := bind_eq_ok_iff.1 done
    obtain ⟨read, rfl, _⟩ := (suffixed tokens).ok between left readFirst
    obtain ⟨read', split, _⟩ := (suffixed' between left).ok value _ readSecond
    -- Nothing has been read by either.
    have nothing : read = [] := by
      have lengths := congrArg List.length split
      simp only [List.length_append] at lengths
      exact List.eq_nil_of_length_eq_zero (by omega)
    subst nothing
    exact first.idle between left readFirst ((second between).idle value left readSecond atEnd)

/-- Attentive readers in a row. -/
theorem Attentive.bind {next : α → Reader β} (first : Attentive before mid reader)
    (second : ∀ value, Attentive mid ends (next value)) : Attentive before ends (reader >>= next) where
  toJoins := first.toJoins.bind (fun value => (second value).toJoins) first.on
    fun value => (second value).on
  on tokens := (first.on tokens).bind (fun value rest _ => (second value).on rest)
    fun value => (second value).toJoins

theorem Attentive.pure (value : α) : Attentive ends ends (Pure.pure value : Reader α) where
  can := ⟨[], value, nofun, fun _ atEnd => ⟨atEnd, rfl⟩⟩
  idle _ _ _ := id
  on _ := .ofIdle fun _ _ => rfl

/-! ## 3. Readers that take one token -/

theorem attentive_expect {accept : Token → Except Error α} {missing : Error}
    (refusal : ∀ t e rest, accept t = .error e → Refusal e (t :: rest))
    (refusalMissing : Refusal missing []) {t : Token} {value : α} (solid : t.isBlank = false)
    (accepted : accept t = .ok value) (place : ∀ next, before (t :: next)) :
    Attentive before ends (expect accept missing) := by
  have joins : Joins before ends (expect accept missing) := by
    refine ⟨⟨[t], value, by simpa using solid,
      fun next _ => ⟨place next, expect_eq_ok_iff.2 ⟨t, rfl, accepted⟩⟩⟩, fun found tokens done => ?_⟩
    -- It takes a token, so there are fewer left.
    obtain ⟨u, split, -⟩ := expect_eq_ok_iff.1 done
    exact absurd (congrArg List.length split) (by simp)
  refine ⟨joins, fun tokens => ?_⟩
  cases tokens with
  | nil =>
    refine .ofFail refusalMissing (fun next first => ?_) joins.completes
    rw [List.head?_nil, List.head?_eq_none_iff] at first
    rw [first]
    rfl
  | cons u rest =>
    cases known : accept u with
    | ok found =>
      exact .cons _ (fun rest => expect_eq_ok_iff.2 ⟨u, rfl, known⟩)
        ((Attentive.pure found).on rest)
    | error e =>
      refine .ofFail (refusal u e rest known) (fun next first => ?_) joins.completes
      obtain ⟨tail, rfl⟩ := List.head?_eq_some_iff.1 first
      rw [expect]
      simp only [known]

/-! ## 4. What errors are about -/

/-- All of some tokens are refused: there is a reason, the same happens whatever follows the first
of those that are left, and in front of it all could still have turned out well. -/
theorem AttentiveAt.complete (attentive : AttentiveAt (· = []) reader tokens)
    (failed : reader.complete tokens = .error fault) :
    ∃ read, tokens = read ++ fault.rest ∧ Refusal fault.error fault.rest ∧
      (∀ next, next.head? = fault.rest.head? →
        reader.complete (read ++ next) = .error ⟨fault.error, next⟩) ∧
      ∃ more value, (∀ t ∈ more, t.isBlank = false) ∧
        reader.complete (read ++ more) = .ok value := by
  simp only [Reader.complete, StateT.run] at failed ⊢
  cases known : reader tokens with
  | error fault' =>
    rw [known] at failed
    cases failed
    obtain ⟨read, split, refusal, same, more, value, solid, completes⟩ := attentive.error _ known
    refine ⟨read, split, refusal, fun next first => by rw [same next first],
      more, value, solid, ?_⟩
    have done := completes [] rfl
    rw [List.append_nil] at done
    rw [done]
  | ok out =>
    obtain ⟨value, rest⟩ := out
    obtain ⟨read, rfl, takes⟩ := attentive.ok value rest known
    rw [known] at failed
    cases rest with
    | nil => cases failed
    | cons t rest =>
      -- All has been read but tokens that are left over.
      cases failed
      refine ⟨read, rfl, .extraneous t rest, fun next first => ?_, [], value,
        fun u mem => absurd mem List.not_mem_nil, ?_⟩
      · obtain ⟨tail, rfl⟩ := List.head?_eq_some_iff.1 first
        rw [takes (t :: tail) (.inl rfl)]
      · rw [takes [] (.inr rfl)]

end Reader

/-- What an error in reading some tokens is about. It is at the first token behind which nothing can
be saved, or at their end when there is something missing. -/
inductive Rejected {α : Type} (read : List Token → Except Error α) (tokens : List Token)
    (e : Error) : Prop
  /-- Up to the token something could have followed that is read, and behind it all is refused in
  the same way. Where the error names a token, it is this one. -/
  | atToken {front back : List Token} {t : Token} (split : tokens = front ++ t :: back)
      (solid : t.isBlank = false)
      (column : e.column = ⟨Token.totalWidth front, Token.totalWidth front + t.width⟩)
      (same : ∀ more, read (front ++ t :: more) = .error e)
      (viable : ∃ more value, read (front ++ more) = .ok value)
      (names : Refusal.namesToken e.code = true → e.detail = t.text) : Rejected read tokens e
  /-- Something can follow the tokens so that all is read. -/
  | atEnd (column : e.column = ⟨Token.totalWidth tokens, Token.totalWidth tokens⟩)
      (viable : ∃ more value, read (tokens ++ more) = .ok value) : Rejected read tokens e

namespace Reader

variable {α : Type} {reader : Reader α} {tokens : List Token} {e : Error}

theorem read_of_error {fault : Fault} (failed : reader.complete (Token.solid tokens) = .error fault) :
    reader.read tokens =
      .error (fault.error.atColumn (Token.spanBeforeEnd tokens fault.rest.length)) := by
  rw [read, failed]

/-- The errors of attentive readers are errors of reading, and know of no line. -/
theorem kind_of_attentive (attentive : ∀ tokens, AttentiveAt (· = []) reader tokens)
    (failed : reader.read tokens = .error e) : e.code.kind = .reading ∧ e.line = none := by
  cases known : reader.complete (Token.solid tokens) with
  | ok value =>
    rw [read, known] at failed
    cases failed
  | error fault =>
    rw [read_of_error known] at failed
    cases failed
    obtain ⟨_, _, refusal, _⟩ := (attentive _).complete known
    exact ⟨refusal.kind_eq, refusal.line_eq_none⟩

/-- An attentive reader fails at the first token behind which nothing can be saved. -/
theorem rejected_of_attentive (attentive : ∀ tokens, AttentiveAt (· = []) reader tokens)
    (failed : reader.read tokens = .error e) : Rejected reader.read tokens e := by
  cases known : reader.complete (Token.solid tokens) with
  | ok value =>
    rw [read, known] at failed
    cases failed
  | error fault =>
    rw [read_of_error known] at failed
    obtain ⟨e, rest⟩ := fault
    obtain ⟨taken, split, refusal, same, more, value, solid, completes⟩ :=
      (attentive _).complete known
    -- What could have followed holds no blanks, so it is read as it stands.
    have viable : ∀ front, Token.solid front = taken → reader.read (front ++ more) = .ok value := by
      rintro front rfl
      rw [read, Token.solid_append, Token.solid_eq_self solid, completes]
    cases rest with
    | nil =>
      cases failed
      rw [List.append_nil] at split
      exact .atEnd (Token.spanBeforeEnd_zero tokens) ⟨more, value, viable tokens split⟩
    | cons t rest =>
      obtain ⟨front, back, rfl, visible, rfl, rfl⟩ := Token.exists_of_solid_eq split
      rw [Token.spanBeforeEnd_append visible] at failed
      cases failed
      refine .atToken rfl visible rfl (fun back' => ?_) ⟨more, value, viable front rfl⟩
        fun names => refusal.detail_eq names
      have again := same (t :: Token.solid back') rfl
      rw [← Token.solid_cons visible, ← Token.solid_append] at again
      rw [read_of_error again, Token.solid_cons visible, Token.spanBeforeEnd_append visible]

end Reader

end LineBasic
