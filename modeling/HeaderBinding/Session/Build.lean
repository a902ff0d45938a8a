import HeaderBinding.Assembly.BindingModule
import HeaderBinding.Session.Basic

/-!
# Building Modules from Headers

A module is built by reading its headers in order through a session and putting their records
together. The first header that cannot be read ends the attempt; the session goes on and keeps its
count.

## Main definitions

* `BindingModule.build`: A module from the paths of its headers, and the session behind it.
-/

namespace HeaderBinding

/-- Build a module from the paths of its headers. -/
def BindingModule.build (name : String) (headerDir : Path) (paths : List Path)
    (known : List String) (settings : Settings) (session : ParserSession) :
    Except ModuleError BindingModule × ParserSession :=
  match session.readHeaders headerDir settings.parser name paths with
  | (.error e, session) => (.error (.parse e), session)
  | (.ok headers, session) =>
    (BindingModule.ofHeaders name headerDir headers known settings.assembly.collisionPolicy,
      session)

end HeaderBinding
