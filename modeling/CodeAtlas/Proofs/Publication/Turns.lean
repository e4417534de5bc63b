import CodeAtlas.Proofs.Publication
import Mathlib.Data.List.Induction
import Mathlib.Data.Nat.Init

/-!
# Builds in turn

Requests come at any moment, and so do the beginnings and ends of builds. Whatever their order, a
line carries its builds out in the order of their requests, one at a time, as if each had been
requested after the one before it had ended. A build that ends without a result changes nothing of
what is published, and the builds after it have their turns all the same.
-/

namespace CodeAtlas

variable {σ ε ρ : Type}

/-- The result of a build that ended with one. -/
def Built.result? : Built ε ρ → Option ρ
  | .done result => some result
  | .failed _ => none
  | .broken _ => none

/-- A build whose result carries the version that it was given. -/
def Build.Honest [Versioned ρ] (build : Build σ ε ρ) : Prop :=
  ∀ version current shared result,
    (build version current shared).1 = .done result → Versioned.version result = version

namespace Line

/-- What can happen on a line. -/
inductive Event (σ ε ρ : Type) where
  /-- A build is requested. -/
  | request (build : Build σ ε ρ)
  /-- The build of a request begins, if it waits and has its turn. -/
  | start (ticket : Nat)
  /-- The build of a request ends, if it is running. -/
  | finish (ticket : Nat)

/-- The builds that are requested, in order. -/
def requested (events : List (Event σ ε ρ)) : List (Build σ ε ρ) :=
  events.filterMap fun
    | .request build => some build
    | .start _ => none
    | .finish _ => none

/-! ## Builds one after another -/

/-- What builds that were carried out one after another have come to. -/
structure Record (σ ε ρ : Type) where
  /-- How the builds ended, in their order. -/
  outcomes : List (Built ε ρ)
  /-- What builds share after the last of them. -/
  shared : σ

namespace Record

/-- The results in their order. -/
def results (record : Record σ ε ρ) : List ρ := record.outcomes.filterMap Built.result?

/-- Carries out one more build: it is given the number of results so far and one more as its
version, and the last of them as the current result. -/
def add (record : Record σ ε ρ) (build : Build σ ε ρ) : Record σ ε ρ :=
  let (built, shared) := build (record.results.length + 1) record.results.getLast? record.shared
  ⟨record.outcomes ++ [built], shared⟩

/-- Carries out builds one after another. -/
def ofBuilds (shared : σ) (builds : List (Build σ ε ρ)) : Record σ ε ρ :=
  builds.foldl add ⟨[], shared⟩

/-- The version of the last result is the number of results. -/
def Numbered [Versioned ρ] (record : Record σ ε ρ) : Prop :=
  ∀ result, record.results.getLast? = some result →
    Versioned.version result = record.results.length

theorem results_add (record : Record σ ε ρ) (build : Build σ ε ρ) :
    (record.add build).results = record.results ++ (build (record.results.length + 1)
      record.results.getLast? record.shared).1.result?.toList := by
  rw [results, add, List.filterMap_append, ← results, List.filterMap_cons, List.filterMap_nil]
  cases (build (record.results.length + 1) record.results.getLast? record.shared).1 <;> rfl

theorem ofBuilds_concat (shared : σ) (builds : List (Build σ ε ρ)) (build : Build σ ε ρ) :
    ofBuilds shared (builds ++ [build]) = (ofBuilds shared builds).add build := by
  rw [ofBuilds, List.foldl_append]
  rfl

variable [Versioned ρ]

theorem Numbered.add {record : Record σ ε ρ} (numbered : record.Numbered) {build : Build σ ε ρ}
    (honest : build.Honest) : (record.add build).Numbered := by
  intro result isLast
  rw [results_add] at isLast ⊢
  cases ended : (build (record.results.length + 1) record.results.getLast? record.shared).1 with
  | done newest =>
    have same : newest = result := by simpa [ended, Built.result?] using isLast
    rw [← same, honest _ _ _ _ ended]
    simp [Built.result?]
  | failed error =>
    simpa [Built.result?] using numbered result (by simpa [ended, Built.result?] using isLast)
  | broken message =>
    simpa [Built.result?] using numbered result (by simpa [ended, Built.result?] using isLast)

theorem numbered_ofBuilds (shared : σ) {builds : List (Build σ ε ρ)}
    (honest : ∀ build ∈ builds, build.Honest) : (ofBuilds shared builds).Numbered := by
  induction builds using List.reverseRecOn with
  | nil => simp [ofBuilds, Numbered, results]
  | append_singleton builds build induction =>
    rw [ofBuilds_concat]
    refine (induction fun other member => honest other ?_).add (honest build ?_)
    · exact List.mem_append_left _ member
    · exact List.mem_append_right _ (List.mem_singleton_self build)

end Record

/-! ## What a line shows -/

/-- A line has carried out the builds of a record, the first ones that were requested, and the
others are still to be carried out. -/
structure Shows (line : Line σ ε ρ) (record : Record σ ε ρ) (pending : List (Build σ ε ρ)) :
    Prop where
  /-- The current result is the last one. -/
  current : line.published.current = record.results.getLast?
  /-- The previous result is the one before the last. -/
  previous : line.published.previous = record.results.dropLast.getLast?
  /-- What builds share is what the last of them has left. -/
  shared : line.shared = record.shared
  /-- The builds that have ended, and no others, are answered as they ended. -/
  answers : ∀ ticket, line.answer? ticket = record.outcomes[ticket]?
  /-- Every request has a number of its own. -/
  issued : line.issued = record.outcomes.length + pending.length
  /-- At most one of the other builds is running, the first of them, with the next version and the
  last result, and the rest wait in order. -/
  turn : line.requests = record.outcomes.map .settled ++ pending.map .waiting ∨
    ∃ build later, pending = build :: later ∧
      line.requests = record.outcomes.map .settled ++
        .running (record.results.length + 1) record.results.getLast? build :: later.map .waiting

variable {line : Line σ ε ρ} {record : Record σ ε ρ} {pending : List (Build σ ε ρ)}

/-- What has settled is answered, and nothing else is. -/
theorem answer?_of_requests {outcomes : List (Built ε ρ)} {rest : List (Stage σ ε ρ)}
    (requests : line.requests = outcomes.map .settled ++ rest)
    (unsettled : ∀ stage ∈ rest, stage.built? = none) (ticket : Nat) :
    line.answer? ticket = outcomes[ticket]? := by
  rw [answer?, requests]
  rcases Nat.lt_or_ge ticket outcomes.length with ended | behind
  · rw [List.getElem?_append_left (by simpa using ended), List.getElem?_map,
      List.getElem?_eq_getElem ended]
    rfl
  · rw [List.getElem?_append_right (by simpa using behind), List.getElem?_eq_none behind,
      List.length_map]
    cases found : rest[ticket - outcomes.length]? with
    | none => rfl
    | some stage => exact unsettled stage (List.mem_of_getElem? found)

/-- What a line shows follows from its results and the stages of its requests. -/
theorem shows_of_turn (current : line.published.current = record.results.getLast?)
    (previous : line.published.previous = record.results.dropLast.getLast?)
    (shared : line.shared = record.shared)
    (turn : line.requests = record.outcomes.map .settled ++ pending.map .waiting ∨
      ∃ build later, pending = build :: later ∧
        line.requests = record.outcomes.map .settled ++
          .running (record.results.length + 1) record.results.getLast? build ::
            later.map .waiting) : line.Shows record pending := by
  refine ⟨current, previous, shared, ?_, ?_, turn⟩
  · rcases turn with requests | ⟨build, later, -, requests⟩
    · refine answer?_of_requests requests fun stage member => ?_
      obtain ⟨build, -, rfl⟩ := List.mem_map.mp member
      rfl
    · refine answer?_of_requests requests fun stage member => ?_
      rcases List.mem_cons.mp member with rfl | member
      · rfl
      · obtain ⟨build, -, rfl⟩ := List.mem_map.mp member
        rfl
  · rcases turn with requests | ⟨build, later, rfl, requests⟩
    · simp [Line.issued, requests]
    · simp [Line.issued, requests]

theorem shows_fresh (shared : σ) :
    ({ shared := shared } : Line σ ε ρ).Shows (.ofBuilds shared []) [] :=
  shows_of_turn rfl rfl rfl (.inl rfl)

theorem Shows.request (shows : line.Shows record pending) (build : Build σ ε ρ) :
    (line.request build).Shows record (pending ++ [build]) := by
  refine shows_of_turn shows.current shows.previous shows.shared ?_
  rcases shows.turn with requests | ⟨first, later, rfl, requests⟩
  · exact .inl (by simp [Line.request, requests])
  · exact .inr ⟨first, later ++ [build], rfl, by simp [Line.request, requests]⟩

/-- The only request that can go on is the first of those that have not settled. -/
theorem Shows.ticket_eq (shows : line.Shows record pending) {ticket : Nat} {stage : Stage σ ε ρ}
    (found : line.requests[ticket]? = some stage) (unsettled : stage.built? = none)
    (turn : hasTurn line.requests ticket) : ticket = record.outcomes.length := by
  refine Nat.le_antisymm (Nat.le_of_not_lt fun behind => ?_) (Nat.le_of_not_lt fun ended => ?_)
  · have earlier := isSome_answer?_of_hasTurn turn behind
    rw [shows.answers, List.getElem?_eq_none (Nat.le_refl _)] at earlier
    cases earlier
  · have answer := shows.answers ticket
    rw [answer?, found, List.getElem?_eq_getElem ended] at answer
    change stage.built? = _ at answer
    rw [unsettled] at answer
    cases answer

theorem after_last {published : Published ρ} {results : List ρ}
    (current : published.current = results.getLast?)
    (previous : published.previous = results.dropLast.getLast?) (built : Built ε ρ) :
    (published.after built).current = (results ++ built.result?.toList).getLast? ∧
      (published.after built).previous = (results ++ built.result?.toList).dropLast.getLast? := by
  cases built with
  | done result => simp [Published.after, Built.result?, current]
  | failed error => simp [Published.after, Built.result?, current, previous]
  | broken message => simp [Published.after, Built.result?, current, previous]

theorem Shows.finish (shows : line.Shows record pending) (ticket : Nat) :
    (line.finish ticket).Shows record pending ∨
      ∃ build later, pending = build :: later ∧
        (line.finish ticket).Shows (record.add build) later := by
  rcases line.finish_cases ticket with
    ⟨-, same⟩ | ⟨version, current, build, running, published, shared, requests⟩
  · exact .inl (same.symm ▸ shows)
  · have place := shows.ticket_eq running rfl (line.inTurn ticket _ running rfl)
    subst place
    rcases shows.turn with waiting | ⟨first, later, rfl, isRunning⟩
    · cases pending <;> simp [waiting] at running
    · rw [isRunning] at running requests
      obtain ⟨rfl, rfl, rfl⟩ : record.results.length + 1 = version ∧
          record.results.getLast? = current ∧ first = build := by simpa using running
      have last := after_last shows.current shows.previous
        (first (record.results.length + 1) record.results.getLast? record.shared).1
      rw [← record.results_add first] at last
      rw [shows.shared] at published shared requests
      refine .inr ⟨first, later, rfl, ?_⟩
      refine shows_of_turn (published ▸ last.1) (published ▸ last.2) shared (.inl ?_)
      rw [requests, Record.add]
      simp

variable [Versioned ρ]

theorem Shows.start (shows : line.Shows record pending) (inOrder : record.Numbered)
    (ticket : Nat) : (line.start ticket).Shows record pending := by
  have version : line.published.version = record.results.length := by
    rw [Published.version, shows.current]
    cases last : record.results.getLast? with
    | none => simp [List.getLast?_eq_none_iff.mp last]
    | some result => exact inOrder result last
  rcases line.start_cases ticket with
    ⟨-, same⟩ | ⟨build, waits, turn, published, shared, requests⟩
  · exact same.symm ▸ shows
  · have place := shows.ticket_eq waits rfl turn
    subst place
    refine shows_of_turn (published ▸ shows.current) (published ▸ shows.previous)
      (shared ▸ shows.shared) (.inr ?_)
    rw [version, shows.current] at requests
    rcases shows.turn with waiting | ⟨first, later, rfl, isRunning⟩
    · rw [waiting] at waits requests
      cases pending with
      | nil => simp at waits
      | cons first later =>
        obtain rfl : first = build := by simpa using waits
        exact ⟨first, later, rfl, by simpa using requests⟩
    · simp [isRunning] at waits

/-! ## Events -/

/-- The line after an event. -/
def next (line : Line σ ε ρ) : Event σ ε ρ → Line σ ε ρ
  | .request build => line.request build
  | .start ticket => line.start ticket
  | .finish ticket => line.finish ticket

/-- The line after events. -/
def follow (line : Line σ ε ρ) (events : List (Event σ ε ρ)) : Line σ ε ρ := events.foldl next line

theorem Shows.next {shared : σ} {ended : List (Build σ ε ρ)}
    (shows : line.Shows (.ofBuilds shared ended) pending)
    (honest : ∀ build ∈ ended, build.Honest) (event : Event σ ε ρ) :
    ∃ nowEnded nowPending, nowEnded ++ nowPending = ended ++ pending ++ requested [event] ∧
      (line.next event).Shows (.ofBuilds shared nowEnded) nowPending := by
  cases event with
  | request build =>
    exact ⟨ended, pending ++ [build], (List.append_assoc ..).symm, shows.request build⟩
  | start ticket =>
    refine ⟨ended, pending, (List.append_nil _).symm, ?_⟩
    exact shows.start (Record.numbered_ofBuilds shared honest) ticket
  | finish ticket =>
    rcases shows.finish ticket with unchanged | ⟨build, later, rfl, finished⟩
    · exact ⟨ended, pending, (List.append_nil _).symm, unchanged⟩
    · refine ⟨ended ++ [build], later, by simp [requested], ?_⟩
      rwa [Record.ofBuilds_concat]

theorem Shows.follow {shared : σ} {ended : List (Build σ ε ρ)}
    (shows : line.Shows (.ofBuilds shared ended) pending) (events : List (Event σ ε ρ))
    (honest : ∀ build ∈ ended ++ pending ++ requested events, build.Honest) :
    ∃ nowEnded nowPending, nowEnded ++ nowPending = ended ++ pending ++ requested events ∧
      (line.follow events).Shows (.ofBuilds shared nowEnded) nowPending := by
  induction events generalizing line ended pending with
  | nil => exact ⟨ended, pending, (List.append_nil _).symm, shows⟩
  | cons event events induction =>
    have split : requested (event :: events) = requested [event] ++ requested events := by
      rw [requested, ← List.singleton_append, List.filterMap_append]
      rfl
    rw [split, ← List.append_assoc] at honest ⊢
    obtain ⟨nowEnded, nowPending, same, showsNow⟩ := shows.next
      (fun build member => honest build (by simp [member])) event
    rw [← same] at honest ⊢
    exact induction showsNow honest

/-! ## Lines that are settled -/

theorem settle_eq_follow (line : Line σ ε ρ) :
    ∃ events : List (Event σ ε ρ), requested events = [] ∧ line.settle = line.follow events := by
  have serve (tickets : List Nat) (line : Line σ ε ρ) :
      ∃ events : List (Event σ ε ρ), requested events = [] ∧
        tickets.foldl Line.serve line = line.follow events := by
    induction tickets generalizing line with
    | nil => exact ⟨[], rfl, rfl⟩
    | cons ticket tickets induction =>
      obtain ⟨events, none, same⟩ := induction (line.serve ticket)
      exact ⟨.start ticket :: .finish ticket :: events, none, same⟩
  exact serve (List.range line.issued) line

/-- A line that is settled has carried out all builds that were requested. -/
theorem Shows.settle {shared : σ} {ended : List (Build σ ε ρ)}
    (shows : line.Shows (.ofBuilds shared ended) pending)
    (honest : ∀ build ∈ ended ++ pending, build.Honest) :
    line.settle.Shows (.ofBuilds shared (ended ++ pending)) [] := by
  obtain ⟨events, none, settled⟩ := line.settle_eq_follow
  obtain ⟨nowEnded, nowPending, same, showsNow⟩ :=
    shows.follow events (by rwa [none, List.append_nil])
  rw [none, List.append_nil] at same
  rw [← settled] at showsNow
  -- Every request has settled, so nothing is pending.
  have done : nowPending = [] := by
    refine List.length_eq_zero_iff.mp (Nat.eq_zero_of_not_pos fun left => ?_)
    have answered := line.idle_settle (Record.ofBuilds shared nowEnded).outcomes.length
      (showsNow.issued ▸ Nat.lt_add_of_pos_right left)
    rw [showsNow.answers, List.getElem?_eq_none (Nat.le_refl _)] at answered
    cases answered
  rw [done, List.append_nil] at same
  rwa [← same, ← done]

/-- Whatever the order of events on a fresh line, the builds that have ended are the first that were
requested. -/
theorem shows_follow (shared : σ) (events : List (Event σ ε ρ))
    (honest : ∀ build ∈ requested events, build.Honest) :
    ∃ ended pending, ended ++ pending = requested events ∧
      (follow { shared := shared } events).Shows (.ofBuilds shared ended) pending := by
  obtain ⟨ended, pending, all, shows⟩ :=
    (shows_fresh shared).follow events (by simpa using honest)
  exact ⟨ended, pending, all, shows⟩

/-- Once a line is settled, all builds have ended in the order of their requests. -/
theorem shows_settle_follow (shared : σ) (events : List (Event σ ε ρ))
    (honest : ∀ build ∈ requested events, build.Honest) :
    (follow { shared := shared } events).settle.Shows (.ofBuilds shared (requested events)) [] := by
  obtain ⟨ended, pending, all, shows⟩ := shows_follow shared events honest
  rw [← all] at honest ⊢
  exact shows.settle honest

/-! ## Settled lines do not tell when builds began -/

/-- If serving one request comes to the same on two lines that have settled all before it, then so
does settling them. -/
theorem settle_eq_of_serve {other : Line σ ε ρ} {ticket : Nat} (inside : ticket < line.issued)
    (issued : other.issued = line.issued)
    (ended : ∀ earlier < ticket, (line.answer? earlier).isSome ∧ (other.answer? earlier).isSome)
    (same : other.serve ticket = line.serve ticket) : other.settle = line.settle := by
  rw [settle, settle, issued]
  induction line.issued, Nat.succ_le_of_lt inside using Nat.le_induction with
  | base =>
    rw [List.range_succ, List.foldl_append, List.foldl_append,
      foldl_serve_of_settled fun earlier member => (ended earlier (List.mem_range.mp member)).1,
      foldl_serve_of_settled fun earlier member => (ended earlier (List.mem_range.mp member)).2]
    exact same
  | succ count _ induction =>
    rw [List.range_succ, List.foldl_append, List.foldl_append, induction]

theorem settle_start (line : Line σ ε ρ) (ticket : Nat) :
    (line.start ticket).settle = line.settle := by
  rcases line.start_cases ticket with ⟨-, same⟩ | ⟨build, waits, turn, -, -, requests⟩
  · rw [same]
  · have inside : ticket < line.issued := (List.getElem?_eq_some_iff.mp waits).1
    refine settle_eq_of_serve inside (line.issued_start ticket) (fun earlier before => ?_) ?_
    · have ended := isSome_answer?_of_hasTurn turn before
      rw [answer?, answer?, getElem?_start_of_ne line (Nat.ne_of_gt before)]
      exact ⟨ended, ended⟩
    · have running : (line.start ticket).requests[ticket]? =
          some (.running (line.published.version + 1) line.published.current build) := by
        rw [requests, List.getElem?_set_self inside]
      rw [serve, start_of_hasBegun running rfl, serve]

theorem settle_finish (line : Line σ ε ρ) (ticket : Nat) :
    (line.finish ticket).settle = line.settle := by
  rcases line.finish_cases ticket with ⟨-, same⟩ | ⟨_, _, _, running, -, -, requests⟩
  · rw [same]
  · have inside : ticket < line.issued := (List.getElem?_eq_some_iff.mp running).1
    have turn := line.inTurn ticket _ running rfl
    refine settle_eq_of_serve inside (line.issued_finish ticket) (fun earlier before => ?_) ?_
    · have ended := isSome_answer?_of_hasTurn turn before
      rw [answer?, answer?, getElem?_finish_of_ne line (Nat.ne_of_gt before)]
      exact ⟨ended, ended⟩
    · have settled : ((line.finish ticket).answer? ticket).isSome := by
        rw [answer?, requests, List.getElem?_set_self inside]
        rfl
      rw [serve_of_settled settled, serve, start_of_hasBegun running rfl]

/-- Whether a build is requested before or after others have ended makes no difference. -/
theorem settle_request (line : Line σ ε ρ) (build : Build σ ε ρ) :
    (line.request build).settle = line.settle.publish build := by
  rw [line.idle_settle.publish build]
  exact line.publish_eq_carryOut build

end Line
end CodeAtlas
