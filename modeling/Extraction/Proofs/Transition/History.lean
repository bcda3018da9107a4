import Extraction.Proofs.Transition.Meaning

/-!
# Extraction.Proofs.Transition.History

One batch that is given one thing after the other to read.

A batch carries nothing from one request to the next but the problems it has found.  By `read_eq`
no scan of an expression looks at them, and each only puts its own behind them.  So a batch answers
each request as a batch does that has read nothing else, and what it gathers is what such batches
gather, one after the other.  An entry that is refused leaves the batch as it is:

* `serve_eq` — one request, answered as by an empty batch;
* `serveAll_eq` — requests one after the other;
* `finish_eq_ok_iff` — when a batch is free of problems;
* `serveAll_spec` — the answers, the problems, and the verdict at the end.
-/

namespace Extraction.Transition.Batch

open Document

/-- Something that a batch is given to read: an expression, or an entry that has to be one. -/
inductive Request where
  | expression (e : String)
  | entry (v : Value)

/-- The expression that a request holds, if it holds one. -/
def Request.expression? : Request → Option String
  | .expression e => some e
  | .entry (.string e) => some e
  | .entry _ => none

/-- What a batch answers to a request, and the batch after it.  A refused entry leaves the
batch as it is. -/
def serve (b : Batch) : Request → Except Malformed Token × Batch
  | .expression e => (.ok (b.read e).1, (b.read e).2)
  | .entry v =>
    match b.readValue v with
    | .ok (t, b') => (.ok t, b')
    | .error m => (.error m, b)

/-- What a batch answers to requests one after the other, and the batch after them. -/
def serveAll (b : Batch) : List Request → List (Except Malformed Token) × Batch
  | [] => ([], b)
  | r :: rs =>
    let (answer, b) := b.serve r
    let (answers, b) := b.serveAll rs
    (answer :: answers, b)

/-! ## one request -/

/-- What a batch that has read nothing else answers to a request. -/
def answer (r : Request) : Except Malformed Token := (Batch.empty.serve r).1

/-- The problems that such a batch has found after it. -/
def found (r : Request) : List Problem := (Batch.empty.serve r).2.problems

/-- The step: whatever a batch holds, it answers a request as `empty` does, and puts behind its
problems those that `empty` finds. -/
theorem serve_eq (b : Batch) (r : Request) :
    b.serve r = (answer r, ⟨b.problems ++ found r⟩) := by
  have hnone : (⟨b.problems ++ []⟩ : Batch) = b := by rw [List.append_nil]
  have hempty (e : String) : empty.problems ++ problemsOf e = problemsOf e := List.nil_append _
  cases r with
  | expression e => simp only [answer, found, serve, read_eq, hempty]
  | entry v =>
      cases v with
      | string e => simp only [answer, found, serve, readValue, read_eq, hempty]
      | _ => exact Prod.ext rfl hnone.symm

/-- A request gives rise to problems only through the expression that it holds. -/
theorem found_eq (r : Request) :
    found r = r.expression?.toList.flatMap fun e => (empty.read e).2.problems := by
  cases r with
  | expression e => simp [found, serve, Request.expression?]
  | entry v =>
      cases v with
      | string e => simp [found, serve, readValue, Request.expression?]
      | _ => rfl

/-- A refused entry holds no expression. -/
theorem expression?_of_answer_eq_error {r : Request} {m : Malformed} (h : answer r = .error m) :
    r.expression? = none := by
  cases r with
  | expression e => cases h
  | entry v =>
      cases v with
      | string e => cases h
      | _ => rfl

/-- A refused entry leaves no problems behind. -/
theorem found_of_answer_eq_error {r : Request} {m : Malformed} (h : answer r = .error m) :
    found r = [] := by
  rw [found_eq, expression?_of_answer_eq_error h]
  rfl

/-! ## several requests -/

/-- A run answers and finds for each request what it answers and finds alone, by induction over
the requests. -/
theorem serveAll_eq (b : Batch) (rs : List Request) :
    b.serveAll rs = (rs.map answer, ⟨b.problems ++ rs.flatMap found⟩) := by
  induction rs generalizing b with
  | nil => simp [serveAll]
  | cons r rs ih =>
      simp only [serveAll, serve_eq, ih, List.map_cons, List.flatMap_cons, List.append_assoc]

/-- The problems of a run are what the requests have `found`, in their order. -/
theorem problems_serveAll (rs : List Request) :
    (Batch.empty.serveAll rs).2.problems = rs.flatMap found := by
  rw [serveAll_eq]
  exact List.nil_append _

/-- No request gives rise to problems just if none of the expressions does. -/
theorem flatMap_found_eq_nil_iff {rs : List Request} :
    rs.flatMap found = [] ↔
      ∀ e ∈ rs.filterMap Request.expression?, (empty.read e).2.problems = [] := by
  simp only [List.flatMap_eq_nil_iff, found_eq, Option.mem_toList, List.mem_filterMap]
  exact ⟨fun h e ⟨r, hr, he⟩ => h r hr e he, fun h r hr e he => h e ⟨r, hr, he⟩⟩

/-- `finish` succeeds just without problems. -/
theorem finish_eq_ok_iff {b : Batch} : b.finish = .ok () ↔ b.problems = [] := by
  rw [finish, ← List.isEmpty_iff]
  cases b.problems.isEmpty <;> simp

/-- `finish` tells all problems there are. -/
theorem finish_of_problems_ne_nil {b : Batch} (h : b.problems ≠ []) :
    b.finish = .error (.problems b.problems) := by
  rw [finish, if_neg (mt List.isEmpty_iff.1 h)]

/-- **History**: whatever a batch was given to read before, it answers each request as a batch
that has read nothing else.  Its problems are those that such batches find, in the order of
the requests, and a refused entry adds none; this holds at every moment, since it holds after
one more request.  In the end it succeeds just if no expression that it was given has a
fault, and tells all problems otherwise. -/
theorem serveAll_spec (rs : List Request) :
    (Batch.empty.serveAll rs).1 = rs.map (fun r => (Batch.empty.serve r).1) ∧
    (Batch.empty.serveAll rs).2.problems =
      rs.flatMap (fun r => (Batch.empty.serve r).2.problems) ∧
    (∀ r m, (Batch.empty.serve r).1 = .error m → (Batch.empty.serve r).2.problems = []) ∧
    (∀ r, Batch.empty.serveAll (rs ++ [r]) =
      ((Batch.empty.serveAll rs).1 ++ [(Batch.empty.serve r).1],
        ⟨(Batch.empty.serveAll rs).2.problems ++ (Batch.empty.serve r).2.problems⟩)) ∧
    ((Batch.empty.serveAll rs).2.finish = .ok () ↔
      ∀ e ∈ rs.filterMap Request.expression?, (Batch.empty.read e).2.problems = []) ∧
    ((Batch.empty.serveAll rs).2.finish ≠ .ok () →
      (Batch.empty.serveAll rs).2.finish =
        .error (.problems (rs.flatMap fun r => (Batch.empty.serve r).2.problems))) := by
  refine ⟨by rw [serveAll_eq]; rfl, problems_serveAll rs, fun r m => found_of_answer_eq_error,
    fun r => ?_, ?_, fun h => ?_⟩
  · simp only [serveAll_eq, List.map_append, List.map_singleton, List.flatMap_append,
      List.flatMap_singleton, List.append_assoc]
    rfl
  · rw [finish_eq_ok_iff, problems_serveAll, flatMap_found_eq_nil_iff]
  · rw [finish_of_problems_ne_nil (mt finish_eq_ok_iff.2 h), problems_serveAll]
    rfl

/-- An expression with an unknown name, an entry that is refused, a string, and an expression
with two faults. -/
def mixedRequests : List Request :=
  [.expression "a#x", .entry .null, .entry (.string "b"), .expression "|"]

/-- After a refused entry the `mixedRequests` go on, and all problems of the others are told. -/
theorem serveAll_spec_mixed :
    (Batch.empty.serve (.entry .null)).1 = .error .null ∧
    (Batch.empty.serve (.entry .null)).2.problems = [] ∧
    (Batch.empty.serveAll mixedRequests).2.finish ≠ .ok () ∧
    (Batch.empty.serveAll mixedRequests).2.finish =
      .error (.problems [⟨"a#x", .unknownAssertion "x"⟩, ⟨"|", .emptySegment⟩,
        ⟨"|", .emptyAlias⟩]) := by
  obtain ⟨-, -, hrefused, -, hok, herror⟩ := serveAll_spec mixedRequests
  have hfaulty : (Batch.empty.serveAll mixedRequests).2.finish ≠ .ok () := fun h =>
    absurd (hok.1 h "a#x" List.mem_cons_self) (by decide)
  have hproblems : mixedRequests.flatMap (fun r => (Batch.empty.serve r).2.problems) =
      [⟨"a#x", .unknownAssertion "x"⟩, ⟨"|", .emptySegment⟩, ⟨"|", .emptyAlias⟩] := by decide
  exact ⟨rfl, hrefused (.entry .null) .null rfl, hfaulty, hproblems ▸ herror hfaulty⟩

end Extraction.Transition.Batch
