import BenchHistory.Alert.Basic
import BenchHistory.Text.Fold

/-!
# Where alerts go

A sink takes alerts one by one and may refuse each of them. The library knows
three: the log, comments on a commit, and posts to an address. The latter two are
checked when they are set up. There is no transport here: a post fails before
anything is sent.
-/

namespace BenchHistory

/-- Why an alert was not delivered. -/
inductive DeliveryError where
  | http
  | rejected (sink message : String)
deriving DecidableEq, Repr

/-- Takes alerts. Delivering gives the outcome and what the sink has become. -/
class Sink (ρ : Type) where
  name : ρ → String
  deliver : ρ → Alert → Except DeliveryError Unit × ρ

/-- Why a sink cannot be set up. -/
inductive SinkError where
  | badWebhookUrl (url : String)
  | badRepository (repository : String)
  | emptyToken
deriving DecidableEq, Repr

def SinkError.message (e : SinkError) : String :=
  "Invalid sink configuration: " ++
    match e with
    | .badWebhookUrl url => "webhook url must be http(s), got " ++ Text.quoted url
    | .badRepository r => "repository must be owner/name, got " ++ Text.quoted r
    | .emptyToken => "GitHub token is empty"

/-- Comments on commits of a repository, through an interface at some address. -/
structure CommentSink where
  apiUrl : String
  repository : String
  token : String
deriving Repr

namespace CommentSink

/-- The address of the interface unless another one is set. -/
def defaultApiUrl : String :=
  "https://api.github.com"

/-- Whether a text is an owner and a name with a slash between them. -/
def isRepository (s : String) : Bool :=
  match s.toList.span (· ≠ '/') with
  | (owner, _ :: name) => !owner.isEmpty && !name.isEmpty && name.all (· ≠ '/')
  | _ => false

/-- A text without the slashes at its end. -/
def dropSlashes (s : String) : String :=
  String.ofList (s.toList.reverse.dropWhile (· = '/')).reverse

/-- Sets up comments; the repository is looked at first. -/
def make (repository token apiUrl : String) : Except SinkError CommentSink :=
  if !isRepository repository then .error (.badRepository repository)
  else if token = "" then .error .emptyToken
  else .ok ⟨dropSlashes apiUrl, repository, token⟩

/-- Where a comment on a commit is posted. -/
def commentUrl (s : CommentSink) (commitId : String) : String :=
  s.apiUrl ++ "/repos/" ++ s.repository ++ "/commits/" ++ commitId ++ "/comments"

end CommentSink

/-- Posts to an address. -/
structure WebhookSink where
  url : String
deriving Repr

/-- Sets up posts; the address must be one of the web. -/
def WebhookSink.make (url : String) : Except SinkError WebhookSink :=
  if (Text.afterStart? "http://".toList url.toList).isSome ||
      (Text.afterStart? "https://".toList url.toList).isSome then .ok ⟨url⟩
  else .error (.badWebhookUrl url)

/-- A sink that the library knows. -/
inductive Channel where
  | log
  | comments (s : CommentSink)
  | webhook (s : WebhookSink)
deriving Repr

def Channel.name : Channel → String
  | .log => "log"
  | .comments _ => "github"
  | .webhook _ => "webhook"

instance : Sink Channel where
  name := Channel.name
  deliver c _ :=
    match c with
    | .log => (.ok (), c)
    | .comments _ => (.error .http, c)
    | .webhook _ => (.error .http, c)

/--
A sink that follows a plan and remembers what it took. When the plan is at its end it
takes all.
-/
structure Rehearsal where
  plan : List Bool
  taken : List Alert
deriving Repr

/-- One delivery of a rehearsal. -/
def Rehearsal.deliver (r : Rehearsal) (a : Alert) : Except DeliveryError Unit × Rehearsal :=
  match r.plan with
  | false :: plan => (.error (.rejected "planned" "planned failure"), { r with plan := plan })
  | true :: plan => (.ok (), ⟨plan, r.taken ++ [a]⟩)
  | [] => (.ok (), ⟨[], r.taken ++ [a]⟩)

instance : Sink Rehearsal where
  name _ := "planned"
  deliver := Rehearsal.deliver

end BenchHistory
