import ExtendedQuery.Proofs.Wire.Delivery

/-!
# Frames that are left out

Receiving leaves out the notices and the reports of settings that stand before a message, and returns what the
first other frame holds (`receiveExpected_frames`). So it returns the same if more of them are put before the
frames that are read (`Interleaves`), and the bytes that it leaves are the same. Two connections whose input
differs in this way stay beside one another while they are read (`Beside`); main statement:
`receiveExpected_beside`.
-/

namespace ExtendedQuery

open Wire

namespace Wire

abbrev Frame := UInt8 × Bytes

def Fits (f : Frame) : Prop := 4 + f.2.length < UInt32.size

instance (f : Frame) : Decidable (Fits f) := inferInstanceAs (Decidable (_ < _))

/-- The frame is a notice or the report of a setting, which may be malformed. -/
def isAsynchronous (f : Frame) : Bool :=
  f.1 == BackendKind.noticeResponse.typeByte || f.1 == BackendKind.parameterStatus.typeByte

def report? (f : Frame) : Option (String × String) :=
  if f.1 = BackendKind.parameterStatus.typeByte then
    match BackendMessage.ofBody .parameterStatus f.2 with
    | .ok (.parameterStatus name value) => some (name, value)
    | _ => none
  else none

def reports (fs : List Frame) : List (String × String) := fs.filterMap report?

theorem reports_cons (f : Frame) (fs : List Frame) : reports (f :: fs) = reports [f] ++ reports fs := by
  rw [← List.singleton_append, reports, List.filterMap_append]
  rfl

theorem reports_single (f : Frame) : reports [f] = (report? f).toList := by
  unfold reports
  rw [List.filterMap_cons]
  cases report? f <;> rfl

theorem frames_cons (f : Frame) (fs : List Frame) : frames (f :: fs) = backendFrame f.1 f.2 ++ frames fs := rfl

theorem frames_ne_nil (f : Frame) (fs : List Frame) : 0 < (frames (f :: fs)).length := by
  simp [frames_cons, backendFrame]

theorem eq_parameterStatus {body : Bytes} {message : BackendMessage}
    (decoded : BackendMessage.ofBody .parameterStatus body = .ok message) :
    ∃ name value, message = .parameterStatus name value := by
  simp only [BackendMessage.ofBody, bind, Except.bind] at decoded
  split at decoded
  · cases decoded
  · split at decoded
    · cases decoded
    · cases decoded
      exact ⟨_, _, rfl⟩

end Wire

def Capabilities.reportAll (caps : Capabilities) (told : List (String × String)) : Capabilities :=
  told.foldl (fun caps r => caps.report r.1 r.2) caps

theorem Capabilities.reportAll_append (caps : Capabilities) (told more : List (String × String)) :
    caps.reportAll (told ++ more) = (caps.reportAll told).reportAll more := List.foldl_append

namespace Connection

variable {sent : List Bytes} {writable : Bool} {k : Capabilities} {f : Frame} {rest : Bytes}

theorem receiveExpected_frame (expected : Option BackendKind) (fits : Fits f) :
    receiveExpected expected ⟨backendFrame f.1 f.2 ++ rest, sent, writable, k⟩ =
      if f.1 = BackendKind.noticeResponse.typeByte then receiveExpected expected ⟨rest, sent, writable, k⟩
      else if f.1 = BackendKind.parameterStatus.typeByte then
        match BackendMessage.ofBody .parameterStatus f.2 with
        | .ok (.parameterStatus name value) => receiveExpected expected ⟨rest, sent, writable, k.report name value⟩
        | .ok _ => receiveExpected expected ⟨rest, sent, writable, k⟩
        | .error e => (.error (.protocol e), ⟨rest, sent, writable, k⟩)
      else ((decodeExpected expected f.1 f.2).mapError .protocol, ⟨rest, sent, writable, k⟩) :=
  receiveExpected_of_readFrame (readFrame_frame fits rfl)

theorem receiveExpected_aside (expected : Option BackendKind) (fits : Fits f) (aside : IsAside f.1 f.2) :
    receiveExpected expected ⟨backendFrame f.1 f.2 ++ rest, sent, writable, k⟩ =
      receiveExpected expected ⟨rest, sent, writable, k.reportAll (reports [f])⟩ := by
  rw [receiveExpected_frame expected fits]
  rcases aside with notice | ⟨status, message, decoded⟩
  · have silent : reports [f] = [] := by
      rw [reports_single, report?, if_neg (by rw [notice]; decide)]
      rfl
    rw [if_pos notice, silent]
    rfl
  · obtain ⟨name, value, rfl⟩ := eq_parameterStatus decoded
    have told : reports [f] = [(name, value)] := by
      rw [reports_single, report?, if_pos status, decoded]
      rfl
    rw [if_neg (by rw [status]; decide), if_pos status, decoded, told]
    rfl

def taken (expected : Option BackendKind) (f : Frame) : Except Error BackendMessage :=
  if f.1 = BackendKind.parameterStatus.typeByte then
    (BackendMessage.ofBody .parameterStatus f.2).mapError .protocol
  else (decodeExpected expected f.1 f.2).mapError .protocol

theorem reports_taken (other : ¬ IsAside f.1 f.2) : reports [f] = [] := by
  rw [reports_single, report?]
  by_cases status : f.1 = BackendKind.parameterStatus.typeByte
  · cases decoded : BackendMessage.ofBody .parameterStatus f.2 with
    | ok message => exact absurd (.inr ⟨status, message, decoded⟩) other
    | error e =>
      rw [if_pos status]
      rfl
  · rw [if_neg status]
    rfl

theorem receiveExpected_taken (expected : Option BackendKind) (fits : Fits f) (other : ¬ IsAside f.1 f.2) :
    receiveExpected expected ⟨backendFrame f.1 f.2 ++ rest, sent, writable, k⟩ =
      (taken expected f, ⟨rest, sent, writable, k⟩) := by
  have notNotice : f.1 ≠ BackendKind.noticeResponse.typeByte := fun notice => other (.inl notice)
  rw [receiveExpected_frame expected fits, if_neg notNotice, taken]
  by_cases status : f.1 = BackendKind.parameterStatus.typeByte
  · cases decoded : BackendMessage.ofBody .parameterStatus f.2 with
    | ok message => exact absurd (.inr ⟨status, message, decoded⟩) other
    | error e =>
      rw [if_pos status, if_pos status]
      rfl
  · rw [if_neg status, if_neg status]

theorem receiveExpected_of_error {expected : Option BackendKind} {c d : Connection} {e : Error}
    (read : c.readFrame = (.error e, d)) : receiveExpected expected c = (.error e, d) := by
  rw [receiveExpected]
  split
  · rename_i failed
    rw [read] at failed
    cases failed
    rfl
  · rename_i read'
    rw [read] at read'
    cases read'

theorem receiveExpected_frames (expected : Option BackendKind) {fs : List Frame} (fits : ∀ f ∈ fs, Fits f)
    (wellFormed : ∀ f ∈ fs, f.1 = BackendKind.parameterStatus.typeByte →
      ∃ message, BackendMessage.ofBody .parameterStatus f.2 = .ok message) :
    receiveExpected expected ⟨frames fs, sent, writable, k⟩ =
      match fs.dropWhile isAsynchronous with
      | [] => (.error (.transport .endOfInput),
          ⟨[], sent, writable, k.reportAll (reports (fs.takeWhile isAsynchronous))⟩)
      | f :: later => ((decodeExpected expected f.1 f.2).mapError .protocol,
          ⟨frames later, sent, writable, k.reportAll (reports (fs.takeWhile isAsynchronous))⟩) := by
  induction fs generalizing k with
  | nil => exact receiveExpected_of_error rfl
  | cons f fs ih =>
    rw [frames_cons]
    by_cases asynchronous : isAsynchronous f = true
    · have aside : IsAside f.1 f.2 := by
        simp only [isAsynchronous, Bool.or_eq_true, beq_iff_eq] at asynchronous
        rcases asynchronous with notice | status
        · exact .inl notice
        · exact .inr ⟨status, wellFormed f (by simp) status⟩
      have others := ih (k := k.reportAll (reports [f])) (fun g member => fits g (by simp [member]))
        (fun g member => wellFormed g (by simp [member]))
      rw [receiveExpected_aside expected (fits f (by simp)) aside, others, List.dropWhile_cons_of_pos asynchronous,
        List.takeWhile_cons_of_pos asynchronous, reports_cons f (fs.takeWhile isAsynchronous),
        Capabilities.reportAll_append]
    · have other := asynchronous
      simp only [isAsynchronous, Bool.or_eq_true, beq_iff_eq, not_or] at other
      rw [receiveExpected_frame expected (fits f (by simp)), if_neg other.1, if_neg other.2,
        List.dropWhile_cons_of_neg asynchronous, List.takeWhile_cons_of_neg asynchronous]
      rfl

theorem take?_anyhow (c : Connection) (count : Nat) :
    (∀ k, ({ c with capabilities := k } : Connection).take? count = none) ∨
      ∃ bytes rest, rest.length + count = c.incoming.length ∧
        ∀ k, ({ c with capabilities := k } : Connection).take? count =
          some (bytes, { c with incoming := rest, capabilities := k }) := by
  by_cases enough : (c.incoming.take count).length = count
  · have taken : c.take? count = some (c.incoming.take count, { c with incoming := c.incoming.drop count }) :=
      if_pos enough
    exact .inr ⟨c.incoming.take count, c.incoming.drop count, take?_incoming taken, fun k => if_pos enough⟩
  · exact .inl fun k => if_neg enough

theorem readFrame_anyhow (c : Connection) :
    ∃ outcome rest, (rest.length < c.incoming.length ∨ rest = c.incoming ∧ ∃ e, outcome = .error e) ∧
      ∀ k, ({ c with capabilities := k } : Connection).readFrame =
        (outcome, { c with incoming := rest, capabilities := k }) := by
  rcases c.take?_anyhow 5 with missing | ⟨header, rest, shorter, read⟩
  · refine ⟨.error (.transport .endOfInput), c.incoming, .inr ⟨rfl, _, rfl⟩, fun k => ?_⟩
    rw [readFrame, missing]
  by_cases small : Bytes.value (header.drop 1) < 4
  · refine ⟨.error (.protocol (.malformed .lengthTooSmall)), rest, .inl (by omega), fun k => ?_⟩
    rw [readFrame, read]
    exact if_pos small
  rcases ({ c with incoming := rest } : Connection).take?_anyhow (Bytes.value (header.drop 1) - 4) with
    missing | ⟨body, rest', shorter', read'⟩
  · refine ⟨.error (.transport .endOfInput), rest, .inl (by omega), fun k => ?_⟩
    have cut := missing k
    rw [readFrame, read]
    dsimp only at cut ⊢
    rw [if_neg small, cut]
  · dsimp only at shorter'
    refine ⟨.ok (header.headD 0, body), rest', .inl (by omega), fun k => ?_⟩
    have whole := read' k
    rw [readFrame, read]
    dsimp only at whole ⊢
    rw [if_neg small, whole]

theorem receiveExpected_anyhow (expected : Option BackendKind) (c : Connection) :
    ∃ outcome rest more, (rest.length < c.incoming.length ∨ rest = c.incoming ∧ more = []) ∧
      ∀ k, receiveExpected expected { c with capabilities := k } =
        (outcome, ⟨rest, c.sent, c.writable, k.reportAll more⟩) := by
  induction length : c.incoming.length using Nat.strongRecOn generalizing c with
  | ind n ih =>
    subst length
    obtain ⟨read, rest, shorter, reads⟩ := c.readFrame_anyhow
    cases read with
    | error e =>
      refine ⟨.error e, rest, [], ?_, fun k => receiveExpected_of_error (reads k)⟩
      rcases shorter with shorter | ⟨same, -⟩
      · exact .inl shorter
      · exact .inr ⟨same, rfl⟩
    | ok f =>
      have shorter : rest.length < c.incoming.length := by
        rcases shorter with shorter | ⟨-, e, impossible⟩
        · exact shorter
        · cases impossible
      -- a frame that is left out leaves a shorter input to receive from
      have onwards := ih rest.length shorter { c with incoming := rest } rfl
      obtain ⟨outcome, left, more, within, receives⟩ := onwards
      have within : left.length < c.incoming.length := by
        rcases within with within | ⟨rfl, -⟩
        · exact Nat.lt_trans within shorter
        · exact shorter
      by_cases notice : f.1 = BackendKind.noticeResponse.typeByte
      · refine ⟨outcome, left, more, .inl within, fun k => ?_⟩
        rw [receiveExpected_of_readFrame (reads k), if_pos notice]
        exact receives k
      by_cases status : f.1 = BackendKind.parameterStatus.typeByte
      · cases decoded : BackendMessage.ofBody .parameterStatus f.2 with
        | error e =>
          refine ⟨.error (.protocol e), rest, [], .inl shorter, fun k => ?_⟩
          rw [receiveExpected_of_readFrame (reads k), if_neg notice, if_pos status, decoded]
          rfl
        | ok message =>
          obtain ⟨name, value, rfl⟩ := eq_parameterStatus decoded
          refine ⟨outcome, left, (name, value) :: more, .inl within, fun k => ?_⟩
          rw [receiveExpected_of_readFrame (reads k), if_neg notice, if_pos status, decoded]
          exact receives (k.report name value)
      · refine ⟨(decodeExpected expected f.1 f.2).mapError .protocol, rest, [], .inl shorter, fun k => ?_⟩
        rw [receiveExpected_of_readFrame (reads k), if_neg notice, if_neg status]
        rfl

end Connection

/-- The frames with notices and reports of settings put before some of them. -/
inductive Interleaves : List Frame → List Frame → Prop
  | nil : Interleaves [] []
  | keep {f : Frame} {fs gs : List Frame} : Fits f → Interleaves fs gs → Interleaves (f :: fs) (f :: gs)
  | insert {f g : Frame} {fs gs : List Frame} : Fits g → IsAside g.1 g.2 → Interleaves (f :: fs) gs →
    Interleaves (f :: fs) (g :: gs)

section

variable (k : Capabilities) (base spliced : List Frame) (tail : Bytes)

/-- Two connections while they are read, of which the second had frames put before the frames `base` of the
first. They have read as far, or they have read all these frames and what they have left is the same. -/
inductive Beside : Connection → Connection → Prop
  | within {fs gs : List Frame} {told told' : List (String × String)} {sent : List Bytes} {writable : Bool} :
    Interleaves fs gs → told ++ reports fs = reports base → told' ++ reports gs = reports spliced →
    Beside ⟨frames fs ++ tail, sent, writable, k.reportAll told⟩
      ⟨frames gs ++ tail, sent, writable, k.reportAll told'⟩
  | beyond {rest : Bytes} {more : List (String × String)} {sent : List Bytes} {writable : Bool} :
    rest.length ≤ tail.length → (rest = tail → more = []) →
    Beside ⟨rest, sent, writable, k.reportAll (reports base ++ more)⟩
      ⟨rest, sent, writable, k.reportAll (reports spliced ++ more)⟩

end

namespace Connection

variable {k : Capabilities} {base spliced : List Frame} {tail : Bytes} {c d : Connection}

theorem receiveExpected_beside (expected : Option BackendKind) (beside : Beside k base spliced tail c d) :
    ∃ outcome c' d', c.receiveExpected expected = (outcome, c') ∧ d.receiveExpected expected = (outcome, d') ∧
      Beside k base spliced tail c' d' := by
  have beyond {rest : Bytes} {more : List (String × String)} {sent : List Bytes} {writable : Bool}
      (short : rest.length ≤ tail.length) (silent : rest = tail → more = []) :
      ∃ outcome c' d',
        receiveExpected expected ⟨rest, sent, writable, k.reportAll (reports base ++ more)⟩ = (outcome, c') ∧
        receiveExpected expected ⟨rest, sent, writable, k.reportAll (reports spliced ++ more)⟩ = (outcome, d') ∧
        Beside k base spliced tail c' d' := by
    obtain ⟨outcome, rest', more', shorter, receives⟩ :=
      receiveExpected_anyhow expected ⟨rest, sent, writable, k⟩
    refine ⟨outcome, _, _, receives _, receives _, ?_⟩
    rw [← Capabilities.reportAll_append, ← Capabilities.reportAll_append, List.append_assoc, List.append_assoc]
    rcases shorter with shorter | ⟨rfl, rfl⟩
    · have below : rest'.length < tail.length := Nat.lt_of_lt_of_le shorter short
      apply Beside.beyond (Nat.le_of_lt below)
      rintro rfl
      exact absurd below (Nat.lt_irrefl _)
    · apply Beside.beyond short
      intro same
      rw [silent same, List.append_nil]
  cases beside with
  | beyond short silent => exact beyond short silent
  | @within fs gs told told' sent writable interleaves before before' =>
    induction interleaves generalizing told told' with
    | nil =>
      have all : told = reports base ++ [] := by simpa [reports] using before
      have all' : told' = reports spliced ++ [] := by simpa [reports] using before'
      rw [all, all']
      exact beyond (Nat.le_refl _) fun _ => rfl
    | @keep f fs gs fits interleaves ih =>
      rw [reports_cons, ← List.append_assoc] at before before'
      rw [frames_cons, frames_cons, List.append_assoc, List.append_assoc]
      by_cases aside : IsAside f.1 f.2
      · rw [receiveExpected_aside expected fits aside, receiveExpected_aside expected fits aside,
          ← Capabilities.reportAll_append, ← Capabilities.reportAll_append]
        exact ih before before'
      · rw [reports_taken aside, List.append_nil] at before before'
        rw [receiveExpected_taken expected fits aside, receiveExpected_taken expected fits aside]
        exact ⟨_, _, _, rfl, rfl, .within interleaves before before'⟩
    | @insert f g fs gs fits aside interleaves ih =>
      rw [reports_cons g, ← List.append_assoc] at before'
      rw [frames_cons g, List.append_assoc, receiveExpected_aside expected fits aside,
        ← Capabilities.reportAll_append]
      exact ih before before'

end Connection

end ExtendedQuery
