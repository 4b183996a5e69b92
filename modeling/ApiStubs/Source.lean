import ApiStubs.Json.Reader

/-!
# Where documents come from

A document is a saved file, or the body of a response. It is asked for at a URL through an HTTP client,
and redirects are followed to where it is. The client and its URLs are not made here: `Client` is what
can be asked of one, and `Client.Documented` what it promises, response by response.

* `newlines`: a text with all line ends as line feeds
* `loadFile`: the value in a saved file, which is UTF-8
* `loadBody`: the value in the body of a response, whose encoding is detected
* `fetch`: the document at a URL

A surrogate that stands alone in a text of the document is no character; `standIn` is put in its place.
-/

namespace ApiStubs.Source

/-! ## Documents from bytes -/

open Encoding (detect lenientText strictText)

/-! ### Line ends -/

/-- The text so far, in reverse, and whether its last line end was a carriage return, which takes a
line feed after it along. -/
structure LineEnds where
  out : List Char
  afterReturn : Bool

def LineEnds.push (s : LineEnds) (c : Char) : LineEnds :=
  if c = '\r' then ⟨'\n' :: s.out, true⟩
  else if c = '\n' && s.afterReturn then ⟨s.out, false⟩
  else ⟨c :: s.out, false⟩

def newlines (cs : List Char) : List Char := (cs.foldl LineEnds.push ⟨[], false⟩).out.reverse

/-! ### Files and bodies -/

/-- The value in a saved file. -/
def loadFile (bytes : List UInt8) (standIn : Char := Encoding.replacement) : Except Fault Value :=
  match (Encoding.Utf8.decode bytes).bind strictText with
  | some cs => Json.read (newlines cs) standIn
  | none => .error .undecodable

def loadBody (bytes : List UInt8) (standIn : Char := Encoding.replacement) : Except Fault Value :=
  let (scheme, rest) := detect bytes
  match scheme.decode rest with
  | some points => Json.read (lenientText standIn points) standIn
  | none => .error .undecodable

/-! ## Transfers -/

variable {Url : Type}

/-! ### Responses -/

structure Response where
  status : Nat
  location : Option String
  body : List UInt8

/-- The statuses that may point to another URL. -/
def redirectStatuses : List Nat := [301, 302, 303, 307, 308]

def Response.target? (r : Response) : Option String :=
  if redirectStatuses.contains r.status then r.location else none

def Response.Succeeded (r : Response) : Prop := 200 ≤ r.status ∧ r.status ≤ 299

/-- What is answered at each URL. -/
abbrev Site (Url : Type) := Url → Response

/-! ### Clients -/

/-- The URLs asked for, in order, and the last response or why there is none. -/
structure Exchange (Url : Type) where
  requested : List Url
  answer : Except Fault Response

def Exchange.after (e : Exchange Url) (url : Url) : Exchange Url := ⟨url :: e.requested, e.answer⟩

/-- What can be asked of an HTTP client. -/
structure Client (Url : Type) where
  /-- The URL of a text. -/
  parse : String → Url
  /-- The exchange that begins at a URL, if at most so many redirects are followed. -/
  get : Site Url → Nat → Url → Exchange Url
  /-- How many redirects are followed where nothing else is asked for. -/
  maxRedirects : Nat
  /-- Stops at a response that does not say success. -/
  raiseForStatus : Response → Except Fault Unit

/-- What an HTTP client promises that takes locations against URLs by `resolve`. A redirect is followed
to a new exchange that may follow one redirect less. -/
structure Client.Documented (client : Client Url) (resolve : Url → String → Url) : Prop where
  limit : client.maxRedirects = 20
  get_of_none : ∀ site limit url, (site url).target? = none →
    client.get site limit url = ⟨[url], .ok (site url)⟩
  get_zero : ∀ site url location, (site url).target? = some location →
    client.get site 0 url = ⟨[url], .error .tooManyRedirects⟩
  get_succ : ∀ site limit url location, (site url).target? = some location →
    client.get site (limit + 1) url = (client.get site limit (resolve url location)).after url
  accepts : ∀ r, r.Succeeded → client.raiseForStatus r = .ok ()
  refuses : ∀ r, ¬ r.Succeeded → client.raiseForStatus r = .error (.refused r.status)

/-! ### Documents -/

/-- The URLs asked for, in order, and the document or why there is none. -/
structure Transfer (Url : Type) where
  requested : List Url
  outcome : Except Fault Value

/-- The document in a response that the client lets pass. -/
def Client.document (client : Client Url) (r : Response) (standIn : Char := Encoding.replacement) :
    Except Fault Value := do
  client.raiseForStatus r
  loadBody r.body standIn

/-- The document at a URL. -/
def fetch (client : Client Url) (site : Site Url) (url : Url) (standIn : Char := Encoding.replacement) :
    Transfer Url :=
  let exchange := client.get site client.maxRedirects url
  ⟨exchange.requested, exchange.answer.bind fun r => client.document r standIn⟩

theorem requested_fetch (client : Client Url) (site : Site Url) (url : Url) (standIn : Char) :
    (fetch client site url standIn).requested
      = (client.get site client.maxRedirects url).requested := rfl

theorem outcome_fetch (client : Client Url) (site : Site Url) (url : Url) (standIn : Char) :
    (fetch client site url standIn).outcome
      = (client.get site client.maxRedirects url).answer.bind fun r => client.document r standIn := rfl

def publishedUrl : String :=
  "https://raw.githubusercontent.com/ManticoreGamesInc/platform-documentation/"
    ++ "development/src/assets/api/CoreLuaAPI.json"

end ApiStubs.Source
