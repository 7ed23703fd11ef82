import Metrology.Session
import Metrology.Tokens

/-!
Workspaces: a session with further registries, and tokenizers, each bound to a registry. A tokenizer
remembers the atoms of unit strings. A change of a registry makes its tokenizers forget, and a
change of the registry in use makes the session forget its reductions; a change that fails leaves
everything as it is.
-/

namespace Metrology

/-- What a tokenizer is bound to and remembers; the registry in use is number zero. -/
structure Tokenizer where
  registry : Nat
  cache : List (List Char × List Atom)
deriving DecidableEq, Repr

namespace Tokenizer

variable {K : Type}

def forget (t : Tokenizer) : Tokenizer := { t with cache := [] }

/-- The atoms of a unit string, remembered or found, and the tokenizer afterwards. Failures are not
remembered. -/
def tokenize (r : Registry K) (t : Tokenizer) (text : List Char) :
    Except Fault (List Atom) × Tokenizer :=
  match t.cache.lookup text with
  | some atoms => (.ok atoms, t)
  | none =>
    match r.atomsOf text with
    | .error e => (.error e, t)
    | .ok atoms => (.ok atoms, { t with cache := (text, atoms) :: t.cache })

/-- Whether a unit string has atoms, and the tokenizer afterwards. -/
def isValid (r : Registry K) (t : Tokenizer) (text : List Char) : Bool × Tokenizer :=
  let s := t.tokenize r text
  (s.1.isOk, s.2)

end Tokenizer

/-- A session, the registries beside its own, and tokenizers. -/
structure Workspace (K : Type) where
  session : Session K
  others : List (Registry K)
  tokenizers : List Tokenizer

namespace Workspace

variable {K : Type} [Scalar K]

/-- A workspace with a tokenizer for the registry in use. -/
def start (s : Session K) : Workspace K := ⟨s, [], [⟨0, []⟩]⟩

/-- Does a step of the session. -/
def run {α : Type} (w : Workspace K) (a : Action K α) : Except Fault α × Workspace K :=
  let r := a.run w.session
  (r.1, { w with session := r.2 })

/-- The registry with a number; the one in use stands in for one that there is not. -/
def registry (w : Workspace K) : Nat → Registry K
  | 0 => w.session.registry
  | n + 1 => w.others.getD n w.session.registry

/-- Adds a registry. -/
def addRegistry (w : Workspace K) (r : Registry K) : Nat × Workspace K :=
  (w.others.length + 1, { w with others := w.others ++ [r] })

/-- Puts another registry in the place of one, without telling anyone. -/
def setRegistry (w : Workspace K) (n : Nat) (r : Registry K) : Workspace K :=
  match n with
  | 0 => { w with session := { w.session with registry := r } }
  | n + 1 => { w with others := w.others.set n r }

/-- Changes a registry. What was remembered under it is forgotten if the change succeeds. -/
def change (w : Workspace K) (n : Nat) (f : Registry K → Except Fault (Registry K)) :
    Except Fault Unit × Workspace K :=
  match f (w.registry n) with
  | .error e => (.error e, w)
  | .ok r =>
    let w := w.setRegistry n r
    (.ok (),
      { w with
        session := if n = 0 then w.session.forgetReductions else w.session
        tokenizers := w.tokenizers.map fun t => if t.registry = n then t.forget else t })

/-- Adds a tokenizer of a registry. -/
def addTokenizer (w : Workspace K) (registry : Nat) : Nat × Workspace K :=
  (w.tokenizers.length, { w with tokenizers := w.tokenizers ++ [⟨registry, []⟩] })

/-- Lets a tokenizer work and keeps what it remembers. -/
def withTokenizer {α : Type} (w : Workspace K) (n : Nat)
    (f : Registry K → Tokenizer → α × Tokenizer) : α × Workspace K :=
  let t := w.tokenizers.getD n ⟨0, []⟩
  let r := f (w.registry t.registry) t
  (r.1, { w with tokenizers := w.tokenizers.set n r.2 })

/-- Makes a tokenizer forget. -/
def forgetTokens (w : Workspace K) (n : Nat) : Workspace K :=
  (w.withTokenizer n fun _ t => ((), t.forget)).2

end Workspace

end Metrology
