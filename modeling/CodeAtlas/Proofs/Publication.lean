import CodeAtlas.Proofs.List
import CodeAtlas.Publication

/-!
# Builds one after another

A request waits for the one before it to settle, so all requests before one whose build has begun
have settled, and at most one build is running. A build that is published is carried out after all
builds before it, and nothing is left to do then.
-/

namespace CodeAtlas
namespace Line

variable {σ ε ρ : Type}

/-! ## One build at a time -/

/-- The build of a request is running. -/
def IsRunning (line : Line σ ε ρ) (ticket : Nat) : Prop :=
  ∃ version current build, line.requests[ticket]? = some (.running version current build)

theorem answer?_of_settled {line : Line σ ε ρ} {ticket : Nat} {built : Built ε ρ}
    (settled : line.requests[ticket]? = some (.settled built)) :
    line.answer? ticket = some built := by
  rw [answer?, settled]
  rfl

theorem exists_settled_of_isSome {line : Line σ ε ρ} {ticket : Nat}
    (ended : (line.answer? ticket).isSome) :
    ∃ built, line.requests[ticket]? = some (.settled built) := by
  obtain ⟨built, isBuilt⟩ := Option.isSome_iff_exists.mp ended
  obtain ⟨stage, found, isStage⟩ := Option.bind_eq_some_iff.mp isBuilt
  cases stage with
  | waiting build => cases isStage
  | running version current build => cases isStage
  | settled built => exact ⟨built, found⟩

/-- When a request has its turn, all requests before it have settled. -/
theorem isSome_answer?_of_hasTurn {line : Line σ ε ρ} {ticket : Nat}
    (turn : hasTurn line.requests ticket) {earlier : Nat} (before : earlier < ticket) :
    (line.answer? earlier).isSome := by
  induction ticket with
  | zero => exact absurd before (Nat.not_lt_zero earlier)
  | succ ticket induction =>
    rcases Nat.lt_succ_iff_lt_or_eq.mp before with before | rfl
    · obtain ⟨built, settled⟩ := exists_settled_of_isSome turn
      exact induction (line.inTurn ticket _ settled rfl) before
    · exact turn

theorem IsRunning.eq {line : Line σ ε ρ} {first second : Nat} (isFirst : line.IsRunning first)
    (isSecond : line.IsRunning second) : first = second := by
  have notBefore {left right : Nat} (isLeft : line.IsRunning left)
      (isRight : line.IsRunning right) : ¬ left < right := by
    intro before
    obtain ⟨_, _, _, running⟩ := isRight
    obtain ⟨built, settled⟩ :=
      exists_settled_of_isSome (isSome_answer?_of_hasTurn (line.inTurn right _ running rfl) before)
    obtain ⟨_, _, _, stillRunning⟩ := isLeft
    rw [settled] at stillRunning
    cases stillRunning
  exact Nat.le_antisymm (Nat.le_of_not_lt (notBefore isSecond isFirst))
    (Nat.le_of_not_lt (notBefore isFirst isSecond))

/-! ## What a step does -/

/-- What ending a build does: nothing, unless the build is running. -/
theorem finish_cases (line : Line σ ε ρ) (ticket : Nat) :
    (¬ line.IsRunning ticket ∧ line.finish ticket = line) ∨
      ∃ version current build,
        line.requests[ticket]? = some (.running version current build) ∧
        (line.finish ticket).published =
          line.published.after (build version current line.shared).1 ∧
        (line.finish ticket).shared = (build version current line.shared).2 ∧
        (line.finish ticket).requests =
          line.requests.set ticket (.settled (build version current line.shared).1) := by
  unfold finish
  split
  case h_1 version current build running =>
    refine .inr ⟨version, current, build, running, rfl, rfl, ?_⟩
    change line.requests.modify ticket (Stage.finish _) = _
    rw [List.modify_eq_set_getElem?, running]
    rfl
  case h_2 notRunning =>
    refine .inl ⟨?_, rfl⟩
    rintro ⟨version, current, build, running⟩
    exact notRunning version current build running

theorem finish_of_settled {line : Line σ ε ρ} {ticket : Nat}
    (ended : (line.answer? ticket).isSome) : line.finish ticket = line := by
  rcases line.finish_cases ticket with ⟨-, same⟩ | ⟨version, current, build, running, -⟩
  · exact same
  · rw [answer?, running] at ended
    cases ended

theorem issued_finish (line : Line σ ε ρ) (ticket : Nat) :
    (line.finish ticket).issued = line.issued := by
  rcases line.finish_cases ticket with ⟨-, same⟩ | ⟨_, _, _, -, -, -, requests⟩
  · rw [same]
  · rw [issued, requests, List.length_set, issued]

/-- A step of one request leaves the others where they are. -/
theorem getElem?_finish_of_ne (line : Line σ ε ρ) {ticket other : Nat}
    (different : ticket ≠ other) :
    (line.finish ticket).requests[other]? = line.requests[other]? := by
  rcases line.finish_cases ticket with ⟨-, same⟩ | ⟨_, _, _, -, -, -, requests⟩
  · rw [same]
  · rw [requests, List.getElem?_set_ne different]

variable [Versioned ρ]

theorem start_cases (line : Line σ ε ρ) (ticket : Nat) :
    ((∀ build, line.requests[ticket]? = some (.waiting build) →
        hasTurn line.requests ticket = false) ∧ line.start ticket = line) ∨
      ∃ build, line.requests[ticket]? = some (.waiting build) ∧ hasTurn line.requests ticket ∧
        (line.start ticket).published = line.published ∧
        (line.start ticket).shared = line.shared ∧
        (line.start ticket).requests = line.requests.set ticket
          (.running (line.published.version + 1) line.published.current build) := by
  by_cases turn : hasTurn line.requests ticket
  case neg => exact .inl ⟨fun _ _ => Bool.eq_false_iff.mpr turn, dif_neg turn⟩
  rw [start, dif_pos turn]
  cases found : line.requests[ticket]? with
  | none =>
    have beyond : line.requests.length ≤ ticket := List.getElem?_eq_none_iff.mp found
    exact .inl ⟨by simp, Line.ext rfl rfl (List.modify_eq_self beyond)⟩
  | some stage =>
    have changed : line.requests.modify ticket
        (Stage.start (line.published.version + 1) line.published.current) =
          line.requests.set ticket
            (stage.start (line.published.version + 1) line.published.current) := by
      rw [List.modify_eq_set_getElem?, found]
      rfl
    have unchanged : line.requests.set ticket stage = line.requests := by
      obtain ⟨inside, same⟩ := List.getElem?_eq_some_iff.mp found
      rw [← same, List.set_getElem_self]
    cases stage with
    | waiting build => exact .inr ⟨build, rfl, turn, rfl, rfl, changed⟩
    | running version current build =>
      exact .inl ⟨by simp, Line.ext rfl rfl (changed.trans unchanged)⟩
    | settled built => exact .inl ⟨by simp, Line.ext rfl rfl (changed.trans unchanged)⟩

theorem start_of_hasBegun {line : Line σ ε ρ} {ticket : Nat} {stage : Stage σ ε ρ}
    (found : line.requests[ticket]? = some stage) (begun : stage.hasBegun) :
    line.start ticket = line := by
  rcases line.start_cases ticket with ⟨-, same⟩ | ⟨build, waits, -⟩
  · exact same
  · rw [Option.some.inj (found.symm.trans waits)] at begun
    cases begun

theorem serve_of_settled {line : Line σ ε ρ} {ticket : Nat}
    (ended : (line.answer? ticket).isSome) : line.serve ticket = line := by
  obtain ⟨built, settled⟩ := exists_settled_of_isSome ended
  rw [serve, start_of_hasBegun settled rfl, finish_of_settled ended]

theorem issued_start (line : Line σ ε ρ) (ticket : Nat) :
    (line.start ticket).issued = line.issued := by
  rcases line.start_cases ticket with ⟨-, same⟩ | ⟨_, -, -, -, -, requests⟩
  · rw [same]
  · rw [issued, requests, List.length_set, issued]

theorem issued_serve (line : Line σ ε ρ) (ticket : Nat) :
    (line.serve ticket).issued = line.issued := by
  rw [serve, issued_finish, issued_start]

theorem getElem?_start_of_ne (line : Line σ ε ρ) {ticket other : Nat} (different : ticket ≠ other) :
    (line.start ticket).requests[other]? = line.requests[other]? := by
  rcases line.start_cases ticket with ⟨-, same⟩ | ⟨_, -, -, -, -, requests⟩
  · rw [same]
  · rw [requests, List.getElem?_set_ne different]

theorem getElem?_serve_of_ne (line : Line σ ε ρ) {ticket other : Nat} (different : ticket ≠ other) :
    (line.serve ticket).requests[other]? = line.requests[other]? := by
  rw [serve, getElem?_finish_of_ne _ different, getElem?_start_of_ne _ different]

/-! ## Builds that are carried out -/

/-- Every request has settled. -/
def Idle (line : Line σ ε ρ) : Prop := ∀ ticket < line.issued, (line.answer? ticket).isSome

/-- How a build ends if it is the next one, and what it leaves. -/
def attempt (line : Line σ ε ρ) (build : Build σ ε ρ) : Built ε ρ × σ :=
  build (line.published.version + 1) line.published.current line.shared

/-- A line after a build has been requested, begun and ended. -/
def carryOut (line : Line σ ε ρ) (build : Build σ ε ρ) : Line σ ε ρ :=
  (line.request build).serve line.issued

theorem serve_of_waiting {line : Line σ ε ρ} {ticket : Nat} {build : Build σ ε ρ}
    (waits : line.requests[ticket]? = some (.waiting build))
    (turn : hasTurn line.requests ticket) :
    (line.serve ticket).published = line.published.after (line.attempt build).1 ∧
      (line.serve ticket).shared = (line.attempt build).2 ∧
      (line.serve ticket).requests =
        line.requests.set ticket (.settled (line.attempt build).1) := by
  have inside : ticket < line.requests.length := (List.getElem?_eq_some_iff.mp waits).1
  rcases line.start_cases ticket with ⟨none, -⟩ | ⟨other, isOther, -, published, shared, requests⟩
  · rw [none build waits] at turn
    cases turn
  · cases Option.some.inj (waits.symm.trans isOther)
    have running : (line.start ticket).requests[ticket]? =
        some (.running (line.published.version + 1) line.published.current build) := by
      rw [requests, List.getElem?_set_self inside]
    rcases (line.start ticket).finish_cases ticket with
      ⟨none, -⟩ | ⟨_, _, _, isRunning, after, left, settled⟩
    · exact absurd ⟨_, _, _, running⟩ none
    · cases Option.some.inj (running.symm.trans isRunning)
      rw [published, shared] at after
      rw [shared] at left settled
      rw [requests, List.set_set] at settled
      exact ⟨after, left, settled⟩

theorem isSome_answer?_serve {line : Line σ ε ρ} {ticket : Nat} (inside : ticket < line.issued)
    (turn : hasTurn line.requests ticket) : ((line.serve ticket).answer? ticket).isSome := by
  obtain ⟨stage, found⟩ : ∃ stage, line.requests[ticket]? = some stage :=
    ⟨_, List.getElem?_eq_getElem inside⟩
  cases stage with
  | waiting build =>
    obtain ⟨-, -, requests⟩ := serve_of_waiting found turn
    rw [answer?, requests, List.getElem?_set_self inside]
    rfl
  | running version current build =>
    rw [serve, start_of_hasBegun found rfl]
    rcases line.finish_cases ticket with ⟨none, -⟩ | ⟨_, _, _, -, -, -, requests⟩
    · exact absurd ⟨_, _, _, found⟩ none
    · rw [answer?, requests, List.getElem?_set_self inside]
      rfl
  | settled built =>
    have ended : (line.answer? ticket).isSome := by
      rw [answer?_of_settled found]
      rfl
    rw [serve_of_settled ended]
    exact ended

/-! ## Lines that are settled -/

/-- Requests that are served in order settle, and those behind them stay where they are. -/
theorem foldl_serve (line : Line σ ε ρ) {count : Nat} (few : count ≤ line.issued) :
    ((List.range count).foldl serve line).issued = line.issued ∧
      (∀ ticket < count, (((List.range count).foldl serve line).answer? ticket).isSome) ∧
      ∀ ticket ≥ count, ((List.range count).foldl serve line).requests[ticket]? =
        line.requests[ticket]? := by
  induction count with
  | zero => exact ⟨rfl, by simp, fun _ _ => rfl⟩
  | succ count induction =>
    obtain ⟨issued, ended, same⟩ := induction (Nat.le_of_succ_le few)
    rw [List.range_succ, List.foldl_append, List.foldl_cons, List.foldl_nil]
    generalize (List.range count).foldl serve line = served at issued ended same ⊢
    have turn : hasTurn served.requests count := by
      cases count with
      | zero => rfl
      | succ count => exact ended count (Nat.lt_succ_self count)
    refine ⟨(served.issued_serve count).trans issued, fun ticket before => ?_,
      fun ticket behind => ?_⟩
    · rcases Nat.lt_succ_iff_lt_or_eq.mp before with before | rfl
      · rw [answer?, getElem?_serve_of_ne served (Nat.ne_of_gt before)]
        exact ended ticket before
      · exact isSome_answer?_serve (issued ▸ few) turn
    · rw [getElem?_serve_of_ne served (Nat.ne_of_lt behind)]
      exact same ticket (Nat.le_of_succ_le behind)

theorem issued_settle (line : Line σ ε ρ) : line.settle.issued = line.issued :=
  (line.foldl_serve (Nat.le_refl _)).1

theorem idle_settle (line : Line σ ε ρ) : line.settle.Idle := by
  intro ticket inside
  rw [issued_settle] at inside
  exact (line.foldl_serve (Nat.le_refl _)).2.1 ticket inside

theorem foldl_serve_of_settled {line : Line σ ε ρ} {tickets : List Nat}
    (ended : ∀ ticket ∈ tickets, (line.answer? ticket).isSome) :
    tickets.foldl serve line = line := by
  induction tickets with
  | nil => rfl
  | cons ticket tickets induction =>
    rw [List.foldl_cons, serve_of_settled (ended ticket List.mem_cons_self)]
    exact induction fun other member => ended other (List.mem_cons_of_mem ticket member)

theorem settle_of_idle {line : Line σ ε ρ} (idle : line.Idle) : line.settle = line :=
  foldl_serve_of_settled fun ticket member => idle ticket (List.mem_range.mp member)

/-! ## Builds that are published -/

/-- What a request does that is not the last one is the same without the last one. -/
theorem serve_request (line : Line σ ε ρ) (build : Build σ ε ρ) {ticket : Nat}
    (inside : ticket < line.issued) :
    (line.request build).serve ticket = (line.serve ticket).request build := by
  have start_request : (line.request build).start ticket = (line.start ticket).request build := by
    by_cases turn : hasTurn line.requests ticket
    · have sameTurn : hasTurn (line.request build).requests ticket :=
        (hasTurn_append (Nat.le_of_lt inside) _).trans turn
      rw [start, start, dif_pos turn, dif_pos sameTurn]
      exact Line.ext rfl rfl (modify_append_of_lt inside _ _)
    · have sameTurn : ¬ hasTurn (line.request build).requests ticket := by
        rwa [request, hasTurn_append (Nat.le_of_lt inside)]
      rw [start, start, dif_neg turn, dif_neg sameTurn]
  have finish_request (line : Line σ ε ρ) (inside : ticket < line.issued) :
      (line.request build).finish ticket = (line.finish ticket).request build := by
    have same : (line.request build).requests[ticket]? = line.requests[ticket]? :=
      List.getElem?_append_left inside
    unfold finish
    rw [same]
    split
    case h_1 => exact Line.ext rfl rfl (modify_append_of_lt inside _ _)
    case h_2 => rfl
  rw [serve, start_request, finish_request _ (by rwa [issued_start]), serve]

/-- A build that is published is carried out when all before it have settled. -/
theorem publish_eq_carryOut (line : Line σ ε ρ) (build : Build σ ε ρ) :
    line.publish build = line.settle.carryOut build := by
  have behind {count : Nat} (few : count ≤ line.issued) :
      (List.range count).foldl serve (line.request build) =
        ((List.range count).foldl serve line).request build := by
    induction count with
    | zero => rfl
    | succ count induction =>
      have issued := (line.foldl_serve (Nat.le_of_succ_le few)).1
      rw [List.range_succ, List.foldl_append, List.foldl_append,
        induction (Nat.le_of_succ_le few)]
      exact serve_request _ build (issued.symm ▸ few)
  have longer : (line.request build).issued = line.issued + 1 := List.length_append
  rw [publish, settle, longer, List.range_succ, List.foldl_append, behind (Nat.le_refl _),
    carryOut, issued_settle]
  rfl

section Idle

variable {line : Line σ ε ρ} (idle : line.Idle) (build : Build σ ε ρ)

include idle

theorem Idle.carryOut_eq :
    (line.carryOut build).published = line.published.after (line.attempt build).1 ∧
      (line.carryOut build).shared = (line.attempt build).2 ∧
      (line.carryOut build).requests = line.requests ++ [.settled (line.attempt build).1] := by
  have waits : (line.request build).requests[line.issued]? = some (.waiting build) :=
    List.getElem?_concat_length
  have turn : hasTurn (line.request build).requests line.issued := by
    refine (hasTurn_append (Nat.le_refl _) _).trans ?_
    cases last : line.requests.length with
    | zero => rfl
    | succ ticket => exact idle ticket (Nat.lt_of_lt_of_eq (Nat.lt_succ_self ticket) last.symm)
  obtain ⟨published, shared, requests⟩ := serve_of_waiting waits turn
  refine ⟨published, shared, requests.trans ?_⟩
  rw [request, issued, List.set_append_right _ _ (Nat.le_refl _), Nat.sub_self]
  rfl

theorem Idle.answer?_carryOut :
    (line.carryOut build).answer? line.issued = some (line.attempt build).1 := by
  rw [answer?, (idle.carryOut_eq build).2.2, issued, List.getElem?_concat_length]
  rfl

theorem Idle.answer?_carryOut_of_lt {ticket : Nat} (earlier : ticket < line.issued) :
    (line.carryOut build).answer? ticket = line.answer? ticket := by
  rw [answer?, (idle.carryOut_eq build).2.2, List.getElem?_append_left earlier, answer?]

theorem Idle.issued_carryOut : (line.carryOut build).issued = line.issued + 1 := by
  rw [issued, (idle.carryOut_eq build).2.2, List.length_append, issued]
  rfl

theorem Idle.carryOut : (line.carryOut build).Idle := by
  intro ticket inside
  rw [idle.issued_carryOut build] at inside
  rcases Nat.lt_succ_iff_lt_or_eq.mp inside with earlier | rfl
  · rw [idle.answer?_carryOut_of_lt build earlier]
    exact idle ticket earlier
  · rw [idle.answer?_carryOut build]
    rfl

theorem Idle.publish : line.publish build = line.carryOut build := by
  rw [publish_eq_carryOut, settle_of_idle idle]

end Idle

end Line
end CodeAtlas
