import HeaderBinding.Error
import HeaderBinding.Record.Basic
import HeaderBinding.Settings.Basic

/-!
# Sessions

A session reads headers one after the other through one reader and counts those that gave records.

A reader is any function from the requests it has seen to an answer for the last one. So it may
remember, and it may fail at one request and succeed at the same one later, but nothing besides the
requests can influence it.

## Main definitions

* `ReadRequest`: What a reader is asked for.
* `HeaderReader`: A reader.
* `ParserSession`: A reader at work.
* `ParserSession.readHeader`, `ParserSession.readHeaders`: Reading one header, or several until one
  fails.
-/

namespace HeaderBinding

/-- What a reader is asked for: the records of a header. -/
structure ReadRequest where
  /-- The header seen from `headerDir`. -/
  path : Path
  headerDir : Path
  settings : ParserSettings
  /-- The module the header is read for. -/
  module : String
deriving DecidableEq, Inhabited, Repr

/-- The answer to the first request of a list, in view of the earlier requests behind it. -/
abbrev HeaderReader := List ReadRequest → Except ParseError Header

/-- A reader at work. -/
structure ParserSession where
  backend : Backend
  reader : HeaderReader
  /-- The requests so far, the last one first. -/
  requests : List ReadRequest := []
  /-- How many requests gave records. -/
  parsed : Nat := 0

namespace ParserSession

/-- Read one header. -/
def readHeader (s : ParserSession) (request : ReadRequest) :
    Except ParseError Header × ParserSession :=
  let requests := request :: s.requests
  match s.reader requests with
  | .ok header => (.ok header, { s with requests, parsed := s.parsed + 1 })
  | .error e => (.error e, { s with requests })

/-- Read headers in order up to the first that fails. -/
def readHeaders (s : ParserSession) (headerDir : Path) (settings : ParserSettings)
    (module : String) : List Path → Except ParseError (List Header) × ParserSession
  | [] => (.ok [], s)
  | path :: paths =>
    match s.readHeader { path, headerDir, settings, module } with
    | (.error e, s) => (.error e, s)
    | (.ok header, s) =>
      match s.readHeaders headerDir settings module paths with
      | (.error e, s) => (.error e, s)
      | (.ok headers, s) => (.ok (header :: headers), s)

/-- End a session: how many headers gave records. -/
def close (s : ParserSession) : Nat :=
  s.parsed

/-- A session in words, for logs. -/
def describe (s : ParserSession) : String :=
  let backend := match s.backend with
    | .treeSitter => "TreeSitter"
    | .json => "Json"
  "ParserSession \x7b backend: " ++ backend ++ ", parsed: " ++ toString s.parsed ++ " \x7d"

end ParserSession

end HeaderBinding
