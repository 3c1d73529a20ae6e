import Odbcpp.Postgres.QueryResult

/-!
# Phases of a response

A response, read independently of the extractor, is a sequence of phases: the frames up to and
including a completion frame (CommandComplete, EmptyQueryResponse or ErrorResponse), and a tail of
frames that no completion follows.
-/

namespace Odbcpp.Postgres

open Foundation Database

def Tag.completes : Tag → Bool
  | .commandComplete | .emptyQueryResponse | .errorResponse => true
  | _ => false

/-- The frames that only an extended-query exchange contains. -/
def Tag.marksExtended : Tag → Bool
  | .parseComplete | .bindComplete | .parameterDescription => true
  | _ => false

def Tag.describes : Tag → Option ExecutionResultShape
  | .rowDescription => some .resultSet
  | .noData => some .noResultSet
  | _ => none

/-- One phase: the frames since the previous completion, the completing frame, and whether an
extended-query frame had arrived. -/
structure Phase where
  frames : List Message
  closing : Tag
  extended : Bool
deriving DecidableEq

/-- The completed phases of a prefix of a response, and what follows them. -/
structure Exchange where
  phases : List Phase := []
  pending : List Message := []
  extended : Bool := false
deriving DecidableEq

variable (exchange : Exchange) (message : Message)

/-- Extend an exchange by one frame. -/
def Exchange.next : Exchange :=
  if message.tag.completes then
    { exchange with
      phases := exchange.phases ++ [⟨exchange.pending, message.tag, exchange.extended⟩]
      pending := [] }
  else
    { exchange with
      pending := exchange.pending ++ [message]
      extended := exchange.extended || message.tag.marksExtended }

def Exchange.closedBy (closing : Tag) : Phase :=
  ⟨exchange.pending, closing, exchange.extended⟩

variable {message : Message}

theorem Exchange.next_of_completes
    (completes : message.tag.completes = true) : exchange.next message =
      { exchange with
        phases := exchange.phases ++ [exchange.closedBy message.tag]
        pending := [] } := by
  simp [next, completes, closedBy]

theorem Exchange.next_of_pending
    (completes : message.tag.completes = false) : exchange.next message =
      { exchange with
        pending := exchange.pending ++ [message]
        extended := exchange.extended || message.tag.marksExtended } := by
  simp [next, completes]

variable (messages : List Message)

def exchangeOf : Exchange := messages.foldl Exchange.next {}

@[simp] theorem exchangeOf_snoc :
    exchangeOf (messages ++ [message]) = (exchangeOf messages).next message := by
  simp [exchangeOf]

/-- The rows the DataRow frames of a list carry, in wire order. -/
def rowsOf : List ResultRow :=
  messages.filterMap fun message =>
    if message.tag = .dataRow then (parseDataRow message.payload).toOption else none

@[simp] theorem rowsOf_nil : rowsOf [] = [] := rfl

theorem rowsOf_eq_nil (noRow : message.tag ≠ .dataRow) :
    rowsOf [message] = [] := by
  simp [rowsOf, noRow]

theorem rowsOf_eq_singleton {row} (tag : message.tag = .dataRow)
    (parsed : parseDataRow message.payload = .ok row) : rowsOf [message] = [row] := by
  simp [rowsOf, tag, parsed, Except.toOption]

@[simp] theorem rowsOf_append (front back : List Message) :
    rowsOf (front ++ back) = rowsOf front ++ rowsOf back := by
  simp [rowsOf]

def afterLastBind : List Message → Option (List Message)
  | [] => none
  | message :: rest =>
    match afterLastBind rest with
    | some tail => some tail
    | none => if message.tag = .bindComplete then some rest else none

def lastDescription : Option ExecutionResultShape :=
  (messages.filterMap fun message => message.tag.describes).getLast?

/-- The shape of the bound portal: the last description after the last
BindComplete. -/
def portalShape : Option ExecutionResultShape :=
  (afterLastBind messages).bind lastDescription

theorem afterLastBind_snoc : afterLastBind (messages ++ [message]) =
      if message.tag = .bindComplete then some []
      else (afterLastBind messages).map (· ++ [message]) := by
  induction messages with
  | nil => simp [afterLastBind]
  | cons head rest ih =>
    simp only [List.cons_append, afterLastBind, ih]
    by_cases bound : message.tag = .bindComplete
    · simp [bound]
    simp only [bound, if_false]
    cases afterLastBind rest with
    | some tail => simp
    | none => by_cases headBound : head.tag = .bindComplete <;> simp [headBound]

theorem lastDescription_snoc : lastDescription (messages ++ [message]) =
      message.tag.describes.or (lastDescription messages) := by
  unfold lastDescription
  rw [List.filterMap_append]
  cases announced : message.tag.describes with
  | none | some shape => simp [announced]

theorem portalShape_snoc : portalShape (messages ++ [message]) =
      if message.tag = .bindComplete ∨ afterLastBind messages = none then none
      else message.tag.describes.or (portalShape messages) := by
  unfold portalShape
  rw [afterLastBind_snoc]
  by_cases binds : message.tag = .bindComplete
  · simp [binds, lastDescription]
  cases afterLastBind messages with
  | none => simp [binds]
  | some tail => simp [binds, lastDescription_snoc]

namespace Phase

/-- Whether the extractor publishes a result: at every completion but the EmptyQueryResponse of a
simple exchange. -/
def publishes (phase : Phase) : Bool :=
  phase.closing != .emptyQueryResponse || phase.extended

def rows (phase : Phase) : List ResultRow := rowsOf phase.frames

end Phase

/-- The rows of a result and the message that completes it. -/
structure Segment where
  rows : List ResultRow
  closing : Tag
deriving DecidableEq

def Segment.kept (segment : Segment) : List ResultRow :=
  if segment.closing = .errorResponse then [] else segment.rows

/-- How rows are delivered: a segment for each result completed so far, and the rows still waiting
for one. -/
structure Delivery where
  segments : List Segment := []
  waiting : List ResultRow := []
deriving DecidableEq

/-- A publishing phase takes the rows waiting for it and its own; any other
phase leaves its rows to the next one. -/
def Delivery.next (delivery : Delivery) (phase : Phase) : Delivery :=
  if phase.publishes then
    { segments := delivery.segments ++ [⟨delivery.waiting ++ phase.rows, phase.closing⟩] }
  else
    { delivery with waiting := delivery.waiting ++ phase.rows }

def deliveryOf (phases : List Phase) : Delivery := phases.foldl Delivery.next {}

@[simp] theorem deliveryOf_snoc (phases : List Phase) (phase : Phase) :
    deliveryOf (phases ++ [phase]) = (deliveryOf phases).next phase := by
  simp [deliveryOf]

/-- The segments of a response, one for each frame that completes a result. -/
def segmentsOf : List Segment :=
  (deliveryOf (exchangeOf messages).phases).segments

def trailingRows : List ResultRow :=
  (deliveryOf (exchangeOf messages).phases).waiting ++ rowsOf (exchangeOf messages).pending

/-- The segments and the trailing rows hold every row of the response once, in
wire order. -/
theorem segmentsOf_partition :
    (segmentsOf messages).flatMap (·.rows) ++ trailingRows messages = rowsOf messages := by
  induction messages using List.reverseRecOn with
  | nil => rfl
  | append_singleton messages message ih =>
    rw [rowsOf_append, ← ih]
    simp only [segmentsOf, trailingRows, exchangeOf_snoc]
    cases completes : message.tag.completes with
    | false => simp [Exchange.next_of_pending _ completes]
    | true =>
      have noRow : message.tag ≠ .dataRow := by
        intro isRow
        simp [isRow, Tag.completes] at completes
      rw [Exchange.next_of_completes _ completes, deliveryOf_snoc]
      have own : ((exchangeOf messages).closedBy message.tag).rows =
          rowsOf (exchangeOf messages).pending := rfl
      by_cases publishes : ((exchangeOf messages).closedBy message.tag).publishes
      · simp [Delivery.next, publishes, own, rowsOf_eq_nil noRow]
      · simp [Delivery.next, publishes, own, rowsOf_eq_nil noRow]

end Odbcpp.Postgres
