import EighthLayer.CrosstalkMcp.Server
import EighthLayer.Lib.Trim
import Mathlib.Algebra.GroupWithZero.Nat
import Mathlib.Algebra.Order.Ring.Unbundled.Rat
import Mathlib.Data.Rat.Defs

/-!
# EighthLayer.CrosstalkMcp.Help

Whom a server asks for help, and what it charges them.

A call of `help` shortlists sessions by what is known of them, charges those that have budget left, and
asks a model about the others, one after another. While it waits for the model other calls of the
server go on: a call is a row of segments, each from one `await` to the next.
-/

namespace EighthLayer.CrosstalkMcp

open Lib

/-! ## Topics -/

/-- The characters of `\s`. -/
def jsSpace (c : Char) : Bool :=
  (9 ≤ c.toNat && c.toNat ≤ 13) || c.toNat == 0x20 || c.toNat == 0xa0 || c.toNat == 0x1680 ||
    (0x2000 ≤ c.toNat && c.toNat ≤ 0x200a) || c.toNat == 0x2028 || c.toNat == 0x2029 ||
    c.toNat == 0x202f || c.toNat == 0x205f || c.toNat == 0x3000 || c.toNat == 0xfeff

/-- The characters of `\w`. -/
def jsWord (c : Char) : Bool := c.isAlphanum || c == '_'

/-- `topicTokens`; `lower` is `toLowerCase`. An empty piece between two separators is dropped with
the other empty ones. -/
def topicTokens (lower : String → String) (topic : String) : List String :=
  (((lower (String.ofList (trim jsSpace topic.toList))).toList.splitOnP fun c =>
    jsSpace c || c == '-').map (List.filter jsWord) |>.filter (· ≠ [])).map String.ofList

/-- `expertiseMatchesTopic`. -/
def expertiseMatchesTopic (expertise tokens : List String) : Bool :=
  expertise.any fun tag => tokens.any fun token =>
    token.toList.isPrefixOf tag.toList || tag.toList.isPrefixOf token.toList

/-! ## The shortlist -/

/-- A call of `help`, and what it finds on the machine. -/
structure HelpRequest where
  topic : String
  question : String
  urgency : Option String
  maxRecipients : Option Nat
  shortlistOnly : Bool
  /-- The active sessions of the registry. -/
  live : List String
  /-- The sessions of `findExpert`. -/
  experts : List String
  /-- `getLearnedSessions` of a tag: sessions with their confidence. -/
  learned : String → List (String × ℚ)
  /-- The expertise tags of a session's profile, in lower case. -/
  expertise : String → List String

namespace HelpRequest

/-- `urgency === "high"`. -/
def high (r : HelpRequest) : Bool := r.urgency = some "high"

/-- `args.max_recipients || 5`. -/
def max (r : HelpRequest) : Nat := (r.maxRecipients.filter (· ≠ 0)).getD 5

/-- The sessions there are, other than the one that asks. -/
def liveSessions (me : String) (r : HelpRequest) : List String :=
  (r.live.filter (· ≠ me)).eraseDups

/-- The sessions that have shared knowledge on the topic. -/
def cqSessions (me : String) (r : HelpRequest) : List String :=
  (r.experts.filter fun e => e ≠ "unknown" && (r.liveSessions me).contains e).eraseDups

/-- One row of learned expertise: a session keeps its place, and the highest confidence. -/
def raise (learned : List (String × ℚ)) (row : String × ℚ) : List (String × ℚ) :=
  let current := ((learned.find? fun e => e.1 = row.1).map Prod.snd).getD 0
  if row.2 > current then
    if learned.any fun e => e.1 = row.1 then
      learned.map fun e => if e.1 = row.1 then row else e
    else learned ++ [row]
  else learned

/-- `learnedBySession`. -/
def learnedBySession (lower : String → String) (me : String) (r : HelpRequest) :
    List (String × ℚ) :=
  (((topicTokens lower r.topic).flatMap r.learned).filter fun row =>
    (r.liveSessions me).contains row.1).foldl raise []

/-- `l0sessions`. -/
def l0sessions (lower : String → String) (me : String) (r : HelpRequest) : List String :=
  let learnedOnly := ((r.learnedBySession lower me).filter fun e =>
    !(r.cqSessions me).contains e.1).insertionSort fun a b => b.2 ≤ a.2
  ((r.cqSessions me ++ learnedOnly.map Prod.fst).take r.max).eraseDups

/-- `l1sessions`. -/
def l1sessions (lower : String → String) (me : String) (r : HelpRequest) : List String :=
  let tokens := topicTokens lower r.topic
  if tokens = [] then []
  else
    (r.liveSessions me).filter fun session =>
      !(r.l0sessions lower me).contains session && r.expertise session != [] &&
        expertiseMatchesTopic (r.expertise session) tokens

/-- The shortlist. -/
def combined (lower : String → String) (me : String) (r : HelpRequest) : List String :=
  (r.l0sessions lower me ++ r.l1sessions lower me).take r.max

/-- Whom the model is asked about, if there is room for that many. -/
def candidates (lower : String → String) (me : String) (r : HelpRequest) (room : Nat) :
    List String :=
  ((r.liveSessions me).filter fun s =>
    !(r.l0sessions lower me ++ r.l1sessions lower me).contains s).take room

end HelpRequest

/-! ## The budget -/

/-- `BUDGET_LIMIT_TOKENS`. -/
def budgetLimitTokens : Nat := 25000

/-- `DELIVERY_COST_TOKENS`. -/
def deliveryCostTokens : Nat := 5000

/-- `BUDGET_WINDOW_MS`. -/
def budgetWindowMs : Nat := 60 * 60 * 1000

/-- An entry of `tokenBudgets`, with the call and the session that it is of. -/
structure Charge where
  call : Nat
  session : String
  ts : Nat
  tokens : Nat
deriving DecidableEq

/-- `tokenBudgets`, how often the clock has been read, and all the charges that were ever made (of
which the server forgets those that are older than an hour). -/
structure Budgets where
  entries : String → List Charge
  readings : Nat
  ledger : List Charge

/-- A clock: what it shows when it is read for the n-th time. -/
abbrev Readings := Nat → Nat

namespace Budgets

/-- No charges. -/
def empty : Budgets := ⟨fun _ => [], 0, []⟩

/-- `getBudgetSpend`: what the entries of the last hour sum up to; the others are dropped. -/
def getBudgetSpend (now : Readings) (b : Budgets) (session : String) : Nat × Budgets :=
  let entries := (b.entries session).filter fun e => now b.readings < e.ts + budgetWindowMs
  ((entries.map Charge.tokens).sum,
    { b with
      entries := fun s => if s = session then entries else b.entries s
      readings := b.readings + 1 })

/-- `hasBudget`. -/
def hasBudget (now : Readings) (b : Budgets) (session : String) : Bool × Budgets :=
  let (spend, b) := b.getBudgetSpend now session
  (spend + deliveryCostTokens ≤ budgetLimitTokens, b)

/-- `consumeBudget`. -/
def consumeBudget (now : Readings) (b : Budgets) (call : Nat) (session : String) : Budgets :=
  let e : Charge := ⟨call, session, now b.readings, deliveryCostTokens⟩
  { entries := fun s => if s = session then b.entries s ++ [e] else b.entries s
    readings := b.readings + 1
    ledger := b.ledger ++ [e] }

end Budgets

/-! ## A call, segment by segment -/

/-- How far a call of `help` has come. -/
inductive HelpPhase where
  | called (r : HelpRequest)
  /-- The model is asked about a candidate; the rest are to follow. -/
  | gated (r : HelpRequest) (candidate : String) (rest combined : List String)
  /-- Whom the help message has been sent to; nobody where nobody matches. -/
  | ended (r : HelpRequest) (recipients : List String)

/-- The request of a call. -/
def HelpPhase.request : HelpPhase → HelpRequest
  | called r | gated r _ _ _ | ended r _ => r

/-- One session of the shortlist: it is charged, or taken off. -/
def chargeShortlisted (now : Readings) (call : Nat) (acc : List String × Budgets) (session : String) :
    List String × Budgets :=
  let (room, b) := acc.2.hasBudget now session
  if room then
    -- what remains is read once more, for the log
    (acc.1, ((b.consumeBudget now call session).getBudgetSpend now session).2)
  else (acc.1.erase session, b)

/-- The loop over the shortlist. -/
def chargeShortlist (now : Readings) (call : Nat) (high : Bool) (combined : List String)
    (b : Budgets) : List String × Budgets :=
  if high then (combined, b) else combined.foldl (chargeShortlisted now call) (combined, b)

/-- The loop over the candidates up to the next `await`, or to its end. -/
def nextCandidate (now : Readings) (r : HelpRequest) (combined : List String) :
    List String → Budgets → HelpPhase × Budgets
  | [], b => (.ended r combined, b)
  | candidate :: rest, b =>
    if r.high then (.gated r candidate rest combined, b)
    else
      let (room, b) := b.hasBudget now candidate
      if room then (.gated r candidate rest combined, b) else nextCandidate now r combined rest b

/-- The first segment of a call. -/
def startHelp (now : Readings) (lower : String → String) (me : String) (call : Nat)
    (r : HelpRequest) (b : Budgets) : HelpPhase × Budgets :=
  if r.topic = "" ∨ r.question = "" then (.ended r [], b)
  else
    let (combined, b) := chargeShortlist now call r.high (r.combined lower me) b
    if !r.shortlistOnly && combined.length < r.max then
      nextCandidate now r combined (r.candidates lower me (r.max - combined.length)) b
    else (.ended r combined, b)

/-- What follows the model's answer; `none` is that it has failed. -/
def resumeHelp (now : Readings) (call : Nat) (r : HelpRequest) (candidate : String)
    (rest combined : List String) (canHelp : Option Bool) (b : Budgets) : HelpPhase × Budgets :=
  if canHelp = some true then
    nextCandidate now r (combined ++ [candidate]) rest
      (if r.high then b else b.consumeBudget now call candidate)
  else nextCandidate now r combined rest b

/-! ## A server process -/

/-- The calls of `help` of one server process, and its budgets. -/
structure HelpDesk where
  budgets : Budgets
  calls : List HelpPhase

/-- A call goes on: it starts, or the model has answered it. -/
structure HelpStep where
  call : Nat
  /-- The model's answer, where the call waits for it. -/
  canHelp : Option Bool

section Desk

variable (now : Readings) (lower : String → String) (me : String)

/-- The next segment of a call. -/
def HelpPhase.next (call : Nat) (canHelp : Option Bool) (b : Budgets) :
    HelpPhase → HelpPhase × Budgets
  | called r => startHelp now lower me call r b
  | gated r candidate rest combined => resumeHelp now call r candidate rest combined canHelp b
  | ended r recipients => (.ended r recipients, b)

/-- The segment is run, with no other in between. -/
def HelpDesk.step (d : HelpDesk) (s : HelpStep) : HelpDesk :=
  match d.calls[s.call]? with
  | some phase =>
    let (phase, b) := phase.next now lower me s.call s.canHelp d.budgets
    ⟨b, d.calls.set s.call phase⟩
  | none => d

/-- Segments one after another. -/
def HelpDesk.run (d : HelpDesk) (steps : List HelpStep) : HelpDesk :=
  steps.foldl (HelpDesk.step now lower me) d

/-- A process that has just started, and the calls that it will get. -/
def HelpDesk.start (requests : List HelpRequest) : HelpDesk :=
  ⟨.empty, requests.map .called⟩

end Desk

end EighthLayer.CrosstalkMcp
