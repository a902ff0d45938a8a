import HeaderBinding.Session.Build
import Mathlib.Data.List.Basic

/-!
# The Transcript of a Session

What comes of any calls that are made on one session, one after the other, and what its count says
in the end.

The reader behind a session may remember what it was asked, so an answer means nothing without the
requests before it. `HeaderReader.answers` asks a reader for several headers in a row and is all
that is known about it. A `Transcript` tells a session by it. Each call starts from the requests
made before and leaves its own requests behind, and the next call starts from those.

A build makes requests until one fails (`ParserSession.readHeaders_cases`). If none does, the module
is put together from the headers that were read. The requests behind a build show which paths it
asked for, and the next answer is that of a reader that has been asked for no others.

The count goes up with each header that is read and never goes down again. A build that fails keeps
what it has read until then, and one that cannot put its module together keeps everything.

## Main definitions

* `HeaderReader.answers`: The answers to requests that are made in a row.
* `SessionCall`, `SessionAnswer`: What a session is asked for, and what comes of it.
* `ParserSession.perform`, `ParserSession.performAll`: Calls made on one session.
* `Answered`: One call, told by the answers of the reader.
* `Transcript`: The same for calls made one after the other.
* `ParserSession.after`: A session after more requests, with the records they gave counted.

## Theorems

* `ParserSession.readHeader_eq`: One request, as a session and its answer.
* `ParserSession.readHeaders_cases`: All headers are read, or those before the first that fails.
* `ParserSession.perform_answered`: What one call does.
* `ParserSession.performAll_answered`: What all of them do.
* `ParserSession.performAll_transcript`: The transcript and the count of a session.
-/

namespace HeaderBinding

/-- The answers of a reader to requests that are made one after the other, behind earlier ones. -/
def HeaderReader.answers (reader : HeaderReader) (earlier : List ReadRequest) :
    List ReadRequest → List (Except ParseError Header)
  | [] => []
  | request :: requests =>
    reader (request :: earlier) :: HeaderReader.answers reader (request :: earlier) requests

theorem HeaderReader.answers_append (reader : HeaderReader) (earlier first later :
    List ReadRequest) :
    reader.answers earlier (first ++ later) =
      reader.answers earlier first ++ reader.answers (first.reverse ++ earlier) later := by
  induction first generalizing earlier with
  | nil => rfl
  | cons request first ih =>
      rw [List.cons_append, answers, ih, answers, List.cons_append, List.reverse_cons,
        List.append_assoc]
      rfl

/-- The requests for the headers of a module, in the order of their paths. -/
def requestsFor (headerDir : Path) (settings : ParserSettings) (module : String)
    (paths : List Path) : List ReadRequest :=
  paths.map fun path => { path, headerDir, settings, module }

/-- What a session is asked for. -/
inductive SessionCall where
  /-- One header. -/
  | read (request : ReadRequest)
  /-- A module from the paths of its headers. -/
  | build (name : String) (headerDir : Path) (paths : List Path) (known : List String)
      (settings : Settings)

/-- What comes of a call. -/
inductive SessionAnswer where
  | read (result : Except ParseError Header)
  | build (result : Except ModuleError BindingModule)

/-- One call on a reader, from the requests before it to the requests behind it. -/
inductive Answered (reader : HeaderReader) (earlier : List ReadRequest) :
    SessionCall → SessionAnswer → List ReadRequest → Prop
  /-- A header is what the reader answers. -/
  | read (request : ReadRequest) :
      Answered reader earlier (.read request) (.read (reader (request :: earlier)))
        (request :: earlier)
  /-- All headers were read, and they are put together in the order of their paths. -/
  | assembled (name : String) (headerDir : Path) (paths : List Path) (known : List String)
      (settings : Settings) (headers : List Header)
      (hread : reader.answers earlier (requestsFor headerDir settings.parser name paths) =
        headers.map .ok) :
      Answered reader earlier (.build name headerDir paths known settings)
        (.build (BindingModule.ofHeaders name headerDir headers known
          settings.assembly.collisionPolicy))
        ((requestsFor headerDir settings.parser name paths).reverse ++ earlier)
  /-- The headers before a path were read and that one was not. Nobody asked for those behind. -/
  | stopped (name : String) (headerDir : Path) (before : List Path) (path : Path)
      (behind : List Path) (known : List String) (settings : Settings) (headers : List Header)
      (e : ParseError)
      (hread : reader.answers earlier
        (requestsFor headerDir settings.parser name (before ++ [path])) =
          headers.map .ok ++ [.error e]) :
      Answered reader earlier (.build name headerDir (before ++ path :: behind) known settings)
        (.build (.error (.parse e)))
        ((requestsFor headerDir settings.parser name (before ++ [path])).reverse ++ earlier)

/-- Calls on a reader one after the other, each from the requests that the one before has left. -/
inductive Transcript (reader : HeaderReader) :
    List ReadRequest → List SessionCall → List SessionAnswer → List ReadRequest → Prop
  | nil (earlier : List ReadRequest) : Transcript reader earlier [] [] earlier
  | cons (earlier between last : List ReadRequest) (call : SessionCall) (answer : SessionAnswer)
      (calls : List SessionCall) (answers : List SessionAnswer)
      (hfirst : Answered reader earlier call answer between)
      (hrest : Transcript reader between calls answers last) :
      Transcript reader earlier (call :: calls) (answer :: answers) last

namespace ParserSession

/-- Make a call on a session. -/
def perform (s : ParserSession) : SessionCall → SessionAnswer × ParserSession
  | .read request => ((.read (s.readHeader request).1), (s.readHeader request).2)
  | .build name headerDir paths known settings =>
    (.build (BindingModule.build name headerDir paths known settings s).1,
      (BindingModule.build name headerDir paths known settings s).2)

/-- Make calls on a session one after the other. -/
def performAll (s : ParserSession) : List SessionCall → List SessionAnswer × ParserSession
  | [] => ([], s)
  | call :: calls =>
    ((s.perform call).1 :: ((s.perform call).2.performAll calls).1,
      ((s.perform call).2.performAll calls).2)

/-- The session with more requests behind it, each of which counts if it gave records. -/
def after (s : ParserSession) (asked : List ReadRequest) : ParserSession :=
  { s with
    requests := asked.reverse ++ s.requests
    parsed := s.parsed + (s.reader.answers s.requests asked).countP (·.isOk) }

variable (s : ParserSession)

theorem after_after (first later : List ReadRequest) :
    (s.after first).after later = s.after (first ++ later) := by
  simp only [after, HeaderReader.answers_append, List.countP_append, List.reverse_append,
    List.append_assoc, Nat.add_assoc]

theorem readHeader_eq (request : ReadRequest) :
    s.readHeader request = (s.reader (request :: s.requests), s.after [request]) := by
  simp only [readHeader, after, HeaderReader.answers, List.countP_singleton]
  cases s.reader (request :: s.requests) with
  | error e => rfl
  | ok header => rfl

variable (headerDir : Path) (settings : ParserSettings) (module : String)

/-- All headers are read, or those before the first that fails, which is the last one that is asked
    for. -/
theorem readHeaders_cases (paths : List Path) :
    (∃ headers : List Header,
      s.reader.answers s.requests (requestsFor headerDir settings module paths) =
        headers.map .ok ∧
      s.readHeaders headerDir settings module paths =
        (.ok headers, s.after (requestsFor headerDir settings module paths))) ∨
    ∃ (before : List Path) (path : Path) (behind : List Path) (headers : List Header)
      (e : ParseError), paths = before ++ path :: behind ∧
      s.reader.answers s.requests (requestsFor headerDir settings module (before ++ [path])) =
        headers.map .ok ++ [.error e] ∧
      s.readHeaders headerDir settings module paths =
        (.error e, s.after (requestsFor headerDir settings module (before ++ [path]))) := by
  -- Induction on the paths for any session, as each request leaves another one behind.
  induction paths generalizing s with
  | nil => exact Or.inl ⟨[], rfl, rfl⟩
  | cons path paths ih =>
      rw [readHeaders, readHeader_eq]
      cases hanswer : s.reader ({ path, headerDir, settings, module } :: s.requests) with
      | error e =>
          -- The paths behind this one are not looked at.
          refine Or.inr ⟨[], path, paths, [], e, rfl, ?_, rfl⟩
          simp only [List.nil_append, requestsFor, List.map_cons, List.map_nil,
            HeaderReader.answers, hanswer]
      | ok header =>
          -- The rest is read through the session behind the first request.
          rcases ih (s.after [{ path, headerDir, settings, module }]) with
            ⟨headers, hread, hrest⟩ | ⟨before, last, behind, headers, e, hpaths, hread, hrest⟩
          · refine Or.inl ⟨header :: headers, ?_, ?_⟩
            · rw [requestsFor, List.map_cons, HeaderReader.answers, hanswer]
              exact congrArg (.ok header :: ·) hread
            · dsimp only
              rw [hrest, after_after]
              rfl
          · refine Or.inr ⟨path :: before, last, behind, header :: headers, e, ?_, ?_, ?_⟩
            · rw [hpaths, List.cons_append]
            · rw [List.cons_append, requestsFor, List.map_cons, HeaderReader.answers, hanswer]
              exact congrArg (.ok header :: ·) hread
            · dsimp only
              rw [hrest, after_after]
              rfl

/-- A call makes requests of its own, and its answer is told by what the reader answers to
    them. -/
theorem perform_answered (call : SessionCall) :
    ∃ asked, (s.perform call).2 = s.after asked ∧
      Answered s.reader s.requests call (s.perform call).1 (asked.reverse ++ s.requests) := by
  cases call with
  | read request =>
      refine ⟨[request], ?_, ?_⟩
      · rw [perform, readHeader_eq]
      · rw [perform, readHeader_eq]
        exact Answered.read request
  | build name headerDir paths known settings =>
      rcases s.readHeaders_cases headerDir settings.parser name paths with
        ⟨headers, hread, hresult⟩ | ⟨before, path, behind, headers, e, rfl, hread, hresult⟩
      · refine ⟨requestsFor headerDir settings.parser name paths, ?_, ?_⟩
        · rw [perform, BindingModule.build, hresult]
        · rw [perform, BindingModule.build, hresult]
          exact Answered.assembled name headerDir paths known settings headers hread
      · refine ⟨requestsFor headerDir settings.parser name (before ++ [path]), ?_, ?_⟩
        · rw [perform, BindingModule.build, hresult]
        · rw [perform, BindingModule.build, hresult]
          exact Answered.stopped name headerDir before path behind known settings headers e hread

/-- Calls make their requests one after the other. -/
theorem performAll_answered (calls : List SessionCall) :
    ∃ asked, (s.performAll calls).2 = s.after asked ∧
      Transcript s.reader s.requests calls (s.performAll calls).1
        (asked.reverse ++ s.requests) := by
  induction calls generalizing s with
  | nil => exact ⟨[], rfl, Transcript.nil s.requests⟩
  | cons call calls ih =>
      rcases s.perform_answered call with ⟨first, hfirst, hcall⟩
      -- The session behind the first call differs in its requests and its count.
      rcases ih (s.perform call).2 with ⟨later, hlater, hcalls⟩
      refine ⟨first ++ later, ?_, ?_⟩
      · rw [performAll, hlater, hfirst, after_after]
      · rw [performAll, List.reverse_append, List.append_assoc]
        rw [hfirst] at hcalls ⊢
        exact Transcript.cons _ _ _ _ _ _ _ hcall hcalls

end ParserSession

/-- Whatever calls are made on a session, each is answered by the reader in view of the requests
    made so far. A build asks for its headers in order, up to the first that cannot be read, whose
    error it hands on, and otherwise is the module of the headers that were read. The session counts
    the headers that were read, also for builds that failed. -/
theorem ParserSession.performAll_transcript (backend : Backend) (reader : HeaderReader)
    (calls : List SessionCall) :
    ∃ (answers : List SessionAnswer) (s : ParserSession),
      ({ backend, reader } : ParserSession).performAll calls = (answers, s) ∧
      Transcript reader [] calls answers s.requests ∧
      s.parsed = (reader.answers [] s.requests.reverse).countP (·.isOk) ∧
      s.close = s.parsed := by
  rcases ({ backend, reader } : ParserSession).performAll_answered calls with
    ⟨asked, hsession, hcalls⟩
  refine ⟨_, _, rfl, ?_, ?_, rfl⟩
  · rw [hsession]
    exact hcalls
  · rw [hsession]
    simp only [ParserSession.after, List.append_nil, List.reverse_reverse, Nat.zero_add]

/-- A reader that fails once, at the second request. A module cannot be built then and can be built
    later, and the session has read three headers in the end. -/
example : (({
      backend := .json
      reader := fun requests => if requests.length = 2 then .error (.aborted "") else .ok {} } :
        ParserSession).performAll [
      .read { path := "gp_Pnt.hxx", headerDir := "inc", settings := {}, module := "gp" },
      .build "gp" "inc" ["gp_Pnt.hxx", "gp_Vec.hxx"] [] {},
      .build "gp" "inc" ["gp_Pnt.hxx", "gp_Vec.hxx"] [] {}]).2.close = 3 := by
  rfl

end HeaderBinding
