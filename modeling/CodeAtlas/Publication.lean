/-!
# Publications

Results are published one after another. A build is given the next version and the current result;
if it ends with a result, that becomes the current one, and otherwise nothing is published. Each
request waits for the one before it to settle, whether with a result or without.
-/

namespace CodeAtlas

/-- Results that carry a version. -/
class Versioned (ρ : Type) where
  /-- The version of a result. -/
  version : ρ → Nat

/-- The current result and the one before it. -/
structure Published (ρ : Type) where
  /-- The result published last. -/
  current : Option ρ := none
  /-- The result published before that. -/
  previous : Option ρ := none

/-- How a build ended. -/
inductive Built (ε ρ : Type) where
  /-- With a result. -/
  | done (result : ρ)
  /-- With an error. -/
  | failed (error : ε)
  /-- With a message, before it could tell. -/
  | broken (message : String)

/-- A build: given its version, the current result and what builds share, it ends in some way and
leaves what is shared from then on. -/
abbrev Build (σ ε ρ : Type) := (version : Nat) → (current : Option ρ) → σ → Built ε ρ × σ

namespace Published

variable {ε ρ : Type}

/-- The version of the current result; zero before the first one. -/
def version [Versioned ρ] (published : Published ρ) : Nat :=
  (published.current.map Versioned.version).getD 0

/-- The results after a build. -/
def after (published : Published ρ) : Built ε ρ → Published ρ
  | .done result => ⟨some result, published.current⟩
  | .failed _ => published
  | .broken _ => published

@[simp]
theorem after_done (published : Published ρ) (result : ρ) :
    published.after (.done result : Built ε ρ) = ⟨some result, published.current⟩ := rfl

@[simp]
theorem after_failed (published : Published ρ) (error : ε) :
    published.after (.failed error : Built ε ρ) = published := rfl

@[simp]
theorem after_broken (published : Published ρ) (message : String) :
    published.after (.broken message : Built ε ρ) = published := rfl

end Published

/-- How far a request has come. -/
inductive Stage (σ ε ρ : Type) where
  /-- Its build has not begun. -/
  | waiting (build : Build σ ε ρ)
  /-- Its build has begun, given a version and the result that was current then. -/
  | running (version : Nat) (current : Option ρ) (build : Build σ ε ρ)
  /-- Its build has ended. -/
  | settled (built : Built ε ρ)

namespace Stage

variable {σ ε ρ : Type}

/-- How the build has ended, if it has. -/
def built? : Stage σ ε ρ → Option (Built ε ρ)
  | .waiting _ => none
  | .running _ _ _ => none
  | .settled built => some built

/-- Whether the build has begun. -/
def hasBegun : Stage σ ε ρ → Bool
  | .waiting _ => false
  | .running _ _ _ => true
  | .settled _ => true

/-- Begins a build that waits. -/
def start (version : Nat) (current : Option ρ) : Stage σ ε ρ → Stage σ ε ρ
  | .waiting build => .running version current build
  | .running version current build => .running version current build
  | .settled built => .settled built

/-- Ends a build that is running. -/
def finish (built : Built ε ρ) : Stage σ ε ρ → Stage σ ε ρ
  | .waiting build => .waiting build
  | .running _ _ _ => .settled built
  | .settled built => .settled built

end Stage

section Turns

variable {σ ε ρ : Type}

/-- Whether a request has its turn: the first one has it at once, and any other one when the request
before it has settled, however that has ended. -/
def hasTurn (requests : List (Stage σ ε ρ)) : Nat → Bool
  | 0 => true
  | ticket + 1 => (requests[ticket]?.bind Stage.built?).isSome

/-- Builds have begun in their turns only. -/
def InTurn (requests : List (Stage σ ε ρ)) : Prop :=
  ∀ ticket stage, requests[ticket]? = some stage → stage.hasBegun → hasTurn requests ticket

theorem inTurn_nil : InTurn ([] : List (Stage σ ε ρ)) := by
  intro ticket stage found
  cases found

theorem hasTurn_append {requests : List (Stage σ ε ρ)} {ticket : Nat}
    (inside : ticket ≤ requests.length) (later : List (Stage σ ε ρ)) :
    hasTurn (requests ++ later) ticket = hasTurn requests ticket := by
  cases ticket with
  | zero => rfl
  | succ ticket => rw [hasTurn, hasTurn, List.getElem?_append_left inside]

/-- A request that waits does not come out of turn. -/
theorem InTurn.concat {requests : List (Stage σ ε ρ)} (inTurn : InTurn requests)
    (build : Build σ ε ρ) : InTurn (requests ++ [.waiting build]) := by
  intro ticket stage found begun
  rcases Nat.lt_or_ge ticket requests.length with inside | beyond
  · rw [List.getElem?_append_left inside] at found
    exact (hasTurn_append (Nat.le_of_lt inside) _).trans (inTurn ticket stage found begun)
  · rw [List.getElem?_append_right beyond] at found
    have isLast := List.mem_of_getElem? found
    rw [List.mem_singleton.mp isLast] at begun
    cases begun

/-- What has settled stays so when a request goes on. -/
theorem hasTurn_modify {requests : List (Stage σ ε ρ)} {change : Stage σ ε ρ → Stage σ ε ρ}
    (keeps : ∀ stage, stage.built?.isSome → (change stage).built?.isSome) (place : Nat)
    {ticket : Nat} (turn : hasTurn requests ticket) :
    hasTurn (requests.modify place change) ticket := by
  cases ticket with
  | zero => rfl
  | succ ticket =>
    obtain ⟨built, isBuilt⟩ := Option.isSome_iff_exists.mp turn
    obtain ⟨stage, found, isStage⟩ := Option.bind_eq_some_iff.mp isBuilt
    rw [hasTurn, List.getElem?_modify, found]
    change ((if place = ticket then change stage else stage).built?).isSome
    split
    · exact keeps stage (Option.isSome_iff_exists.mpr ⟨built, isStage⟩)
    · exact Option.isSome_iff_exists.mpr ⟨built, isStage⟩

/-- A request may go on if its build begins in its turn or has begun before. -/
theorem InTurn.modify {requests : List (Stage σ ε ρ)} (inTurn : InTurn requests)
    {change : Stage σ ε ρ → Stage σ ε ρ}
    (keeps : ∀ stage, stage.built?.isSome → (change stage).built?.isSome) {place : Nat}
    (turn : ∀ stage, (change stage).hasBegun → stage.hasBegun ∨ hasTurn requests place) :
    InTurn (requests.modify place change) := by
  intro ticket stage found begun
  rw [List.getElem?_modify] at found
  obtain ⟨earlier, isEarlier, same⟩ := Option.map_eq_some_iff.mp found
  refine hasTurn_modify keeps place ?_
  split at same
  case isTrue isPlace =>
    subst isPlace same
    rcases turn earlier begun with before | now
    · exact inTurn place earlier isEarlier before
    · exact now
  case isFalse =>
    subst same
    exact inTurn ticket earlier isEarlier begun

theorem InTurn.start {requests : List (Stage σ ε ρ)} (inTurn : InTurn requests) {ticket : Nat}
    (turn : hasTurn requests ticket) (version : Nat) (current : Option ρ) :
    InTurn (requests.modify ticket (Stage.start version current)) := by
  refine inTurn.modify (fun stage ended => ?_) fun _ _ => .inr turn
  cases stage with
  | waiting build => cases ended
  | running version current build => cases ended
  | settled built => rfl

theorem InTurn.finish {requests : List (Stage σ ε ρ)} (inTurn : InTurn requests) (ticket : Nat)
    (built : Built ε ρ) : InTurn (requests.modify ticket (Stage.finish built)) := by
  refine inTurn.modify (fun stage ended => ?_) fun stage begun => .inl ?_
  · cases stage with
    | waiting build => cases ended
    | running version current build => cases ended
    | settled built => rfl
  · cases stage with
    | waiting build => cases begun
    | running version current build => rfl
    | settled built => rfl

end Turns

/-- The builds of one code base. -/
@[ext]
structure Line (σ ε ρ : Type) where
  /-- The results so far. -/
  published : Published ρ := {}
  /-- What builds share. -/
  shared : σ
  /-- The requests so far; a request is known by its place. -/
  requests : List (Stage σ ε ρ) := []
  /-- Builds have begun in their turns only. -/
  inTurn : InTurn requests := by exact inTurn_nil

namespace Line

variable {σ ε ρ : Type}

/-- The number of requests so far. -/
def issued (line : Line σ ε ρ) : Nat := line.requests.length

/-- How the build of a request has ended. -/
def answer? (line : Line σ ε ρ) (ticket : Nat) : Option (Built ε ρ) :=
  line.requests[ticket]?.bind Stage.built?

/-- Requests a build, which then waits. -/
def request (line : Line σ ε ρ) (build : Build σ ε ρ) : Line σ ε ρ :=
  { line with
    requests := line.requests ++ [.waiting build]
    inTurn := line.inTurn.concat build }

/-- Begins the build of a request if it waits and has its turn. -/
def start [Versioned ρ] (line : Line σ ε ρ) (ticket : Nat) : Line σ ε ρ :=
  if turn : hasTurn line.requests ticket then
    { line with
      requests := line.requests.modify ticket
        (Stage.start (line.published.version + 1) line.published.current)
      inTurn := line.inTurn.start turn _ _ }
  else
    line

/-- Ends the build of a request if it is running. -/
def finish (line : Line σ ε ρ) (ticket : Nat) : Line σ ε ρ :=
  match line.requests[ticket]? with
  | some (.running version current build) =>
    let (built, shared) := build version current line.shared
    { published := line.published.after built
      shared := shared
      requests := line.requests.modify ticket (Stage.finish built)
      inTurn := line.inTurn.finish ticket built }
  | _ => line

/-- Begins the build of a request and ends it. -/
def serve [Versioned ρ] (line : Line σ ε ρ) (ticket : Nat) : Line σ ε ρ :=
  (line.start ticket).finish ticket

/-- Ends all builds in the order of their requests. -/
def settle [Versioned ρ] (line : Line σ ε ρ) : Line σ ε ρ :=
  (List.range line.issued).foldl serve line

/-- Requests a build and ends all up to it. -/
def publish [Versioned ρ] (line : Line σ ε ρ) (build : Build σ ε ρ) : Line σ ε ρ :=
  (line.request build).settle

end Line
end CodeAtlas
