import HeaderBinding.Proofs.Except
import HeaderBinding.Session.Build
import HeaderBinding.Session.Reader

/-!
# Reading Without Memory

A session hands its reader all requests so far, and in general an answer may depend on any of them.
The backends look at the last request alone. With such a reader the headers of a module are the
answers to their own requests and to nothing else, so what a session has read before makes no
difference to a module that is built through it (`BindingModule.build_fst`).

## Main definitions

* `Memoryless`: A reader that looks at the last request alone.

## Theorems

* `ParserSession.memoryless_of_ofSettings`: The backends have no memory.
* `ParserSession.readHeaders_eq`: Headers are read one by one.
* `BindingModule.build_fst`, `BindingModule.build_reader`, `BindingModule.build_eq_ok_iff`: Building
  a module through a session.
-/

namespace HeaderBinding

/-- A reader that looks at the last request alone. -/
def Memoryless (reader : HeaderReader) : Prop :=
  ∀ request earlier, reader (request :: earlier) = reader [request]

theorem HeaderReader.memoryless_ofLast (read : ReadRequest → Except ParseError Header) :
    Memoryless (ofLast read) :=
  fun _ _ => rfl

/-- The backends have no memory. -/
theorem ParserSession.memoryless_of_ofSettings {files : FileTree}
    {grammar : Except String Grammar} {settings : ParserSettings} {s : ParserSession}
    (h : ofSettings files grammar settings = .ok s) : Memoryless s.reader := by
  rcases bind_eq_ok.mp h with ⟨reader, hreader, hs⟩
  obtain rfl := pure_eq_ok.mp hs
  unfold Backend.reader at hreader
  split at hreader
  · rcases bind_eq_ok.mp hreader with ⟨grammar, _, heq⟩
    obtain rfl := pure_eq_ok.mp heq
    exact HeaderReader.memoryless_ofLast _
  · obtain rfl := Except.ok.inj hreader
    exact HeaderReader.memoryless_ofLast _

variable (headerDir : Path) (module : String) (paths : List Path)

namespace ParserSession

variable (s : ParserSession) (settings : ParserSettings)

/-- Without memory, headers are read one by one, and the session keeps its reader. -/
theorem readHeaders_eq (hs : Memoryless s.reader) :
    (s.readHeaders headerDir settings module paths).1 =
      paths.mapM (fun path => s.reader [{ path, headerDir, settings, module }]) ∧
    (s.readHeaders headerDir settings module paths).2.reader = s.reader := by
  induction paths generalizing s with
  | nil => exact ⟨rfl, rfl⟩
  | cons path paths ih =>
      rw [List.mapM_cons, readHeaders, readHeader, hs]
      cases s.reader [{ path, headerDir, settings, module }] with
      | error e => exact ⟨rfl, rfl⟩
      | ok header =>
          -- The rest is read through a session that differs in its requests and its count.
          rcases ih { s with
            requests := { path, headerDir, settings, module } :: s.requests
            parsed := s.parsed + 1 } hs with ⟨hresult, hreader⟩
          dsimp only at hresult hreader ⊢
          rw [← hresult]
          generalize readHeaders _ headerDir settings module paths = rest at hreader ⊢
          rcases rest with ⟨result, session⟩
          cases result with
          | error e => exact ⟨rfl, hreader⟩
          | ok headers => exact ⟨rfl, hreader⟩

end ParserSession

namespace BindingModule

variable (known : List String) (settings : Settings) (s start : ParserSession)

theorem build_reader (hs : Memoryless s.reader) :
    (build module headerDir paths known settings s).2.reader = s.reader := by
  have hreader := (s.readHeaders_eq headerDir module paths settings.parser hs).2
  unfold build
  generalize s.readHeaders headerDir settings.parser module paths = read at hreader
  rcases read with ⟨result, session⟩
  cases result with
  | error e => exact hreader
  | ok headers => exact hreader

/-- Without memory, a module does not depend on what its session has read before. -/
theorem build_fst (hs : Memoryless s.reader) (hstart : s.reader = start.reader) :
    (build module headerDir paths known settings s).1 =
      (build module headerDir paths known settings start).1 := by
  have hread := (s.readHeaders_eq headerDir module paths settings.parser hs).1
  have hfresh := (start.readHeaders_eq headerDir module paths settings.parser (hstart ▸ hs)).1
  rw [hstart, ← hfresh] at hread
  unfold build
  generalize s.readHeaders headerDir settings.parser module paths = read at hread
  generalize start.readHeaders headerDir settings.parser module paths = fresh at hread
  rcases read with ⟨result, session⟩
  rcases fresh with ⟨result', session'⟩
  dsimp only at hread
  subst hread
  cases result with
  | error e => rfl
  | ok headers => rfl

/-- Without memory, building a module is reading its headers one by one and putting it together. -/
theorem build_eq_ok_iff (hs : Memoryless s.reader) (m : BindingModule) :
    (build module headerDir paths known settings s).1 = .ok m ↔
      ∃ headers, paths.mapM (fun path =>
          s.reader [{ path, headerDir, settings := settings.parser, module }]) = .ok headers ∧
        ofHeaders module headerDir headers known settings.assembly.collisionPolicy = .ok m := by
  rw [← (s.readHeaders_eq headerDir module paths settings.parser hs).1]
  unfold build
  rcases s.readHeaders headerDir settings.parser module paths with ⟨result, session⟩
  cases result with
  | error e => simp only [reduceCtorEq, false_and, exists_false]
  | ok headers => simp only [Except.ok.injEq, exists_eq_left']

end BindingModule

end HeaderBinding
