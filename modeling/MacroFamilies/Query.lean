import MacroFamilies.Diagnostic
import MacroFamilies.FileSystem.Basic
/-!
# Queries

A query reads files on its way to an answer and changes none. It is a tree of requests: what is
asked next depends on the answers so far. `Query.run` answers it from a file system.
-/

namespace MacroFamilies

/-- A computation that may read files. -/
inductive Query (α : Type) where
  | done (answer : α)
  /-- Asks for the text of a file. -/
  | readText (path : String) (next : Except SystemFault String → Query α)
  /-- Asks for the files at and below a path. -/
  | listFiles (path : String) (next : Except SystemFault (List Location) → Query α)

namespace Query

def bind {α β : Type} (q : Query α) (f : α → Query β) : Query β :=
  match q with
  | done answer => f answer
  | readText path next => readText path fun a => (next a).bind f
  | listFiles path next => listFiles path fun a => (next a).bind f

instance : Monad Query where
  pure := done
  bind := bind

def run {α : Type} (fs : FileSystem) : Query α → α
  | done answer => answer
  | readText path next => (next (fs.readText path)).run fs
  | listFiles path next => (next (fs.listFiles path)).run fs

@[simp]
theorem run_bind {α β : Type} (fs : FileSystem) (q : Query α) (f : α → Query β) :
    (q >>= f).run fs = (f (q.run fs)).run fs := by
  show (q.bind f).run fs = _
  induction q with
  | done answer => rfl
  | readText path next ih => exact ih _
  | listFiles path next ih => exact ih _

@[simp]
theorem run_pure {α : Type} (fs : FileSystem) (a : α) : (pure a : Query α).run fs = a := rfl

@[simp]
theorem run_readText {α : Type} (fs : FileSystem) (path : String)
    (next : Except SystemFault String → Query α) :
    (readText path next).run fs = (next (fs.readText path)).run fs := rfl

@[simp]
theorem run_listFiles {α : Type} (fs : FileSystem) (path : String)
    (next : Except SystemFault (List Location) → Query α) :
    (listFiles path next).run fs = (next (fs.listFiles path)).run fs := rfl

end Query

/-- A query that may fail with a diagnostic. -/
abbrev Inquiry := ExceptT Diagnostic Query

namespace Inquiry

def ofExcept {α : Type} (result : Except Diagnostic α) : Inquiry α := ExceptT.mk (pure result)

def readText (path : String) : Inquiry (Except SystemFault String) :=
  ExceptT.lift (.readText path .done)

def listFiles (path : String) : Inquiry (Except SystemFault (List Location)) :=
  ExceptT.lift (.listFiles path .done)

def attempt {α : Type} (inquiry : Inquiry α) : Inquiry (Except Diagnostic α) :=
  ExceptT.lift inquiry.run

def answer {α : Type} (fs : FileSystem) (inquiry : Inquiry α) : Except Diagnostic α :=
  Query.run fs inquiry.run

@[simp]
theorem answer_pure {α : Type} (fs : FileSystem) (a : α) :
    answer fs (pure a : Inquiry α) = .ok a := rfl

@[simp]
theorem answer_throw {α : Type} (fs : FileSystem) (d : Diagnostic) :
    answer fs (throw d : Inquiry α) = .error d := rfl

@[simp]
theorem answer_ofExcept {α : Type} (fs : FileSystem) (result : Except Diagnostic α) :
    answer fs (ofExcept result) = result := rfl

@[simp]
theorem answer_readText (fs : FileSystem) (path : String) :
    answer fs (readText path) = .ok (fs.readText path) := rfl

@[simp]
theorem answer_listFiles (fs : FileSystem) (path : String) :
    answer fs (listFiles path) = .ok (fs.listFiles path) := rfl

theorem answer_bind {α β : Type} (fs : FileSystem) (x : Inquiry α) (f : α → Inquiry β) :
    answer fs (x >>= f) = (answer fs x).bind fun a => answer fs (f a) := by
  show Query.run fs (ExceptT.run x >>= ExceptT.bindCont f) = _
  rw [Query.run_bind]
  unfold answer
  cases Query.run fs (ExceptT.run x) <;> rfl

@[simp]
theorem answer_attempt {α : Type} (fs : FileSystem) (inquiry : Inquiry α) :
    answer fs inquiry.attempt = .ok (answer fs inquiry) := by
  show Query.run fs (ExceptT.run inquiry >>= fun a =>
    (pure (Except.ok a) : Query (Except Diagnostic (Except Diagnostic α)))) = _
  rw [Query.run_bind]
  rfl

end Inquiry

end MacroFamilies
