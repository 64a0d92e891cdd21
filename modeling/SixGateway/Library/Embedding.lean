import SixGateway.Library.Program

namespace SixGateway.Library

variable {S Q R T ε W Q' R' T' ε' α β : Type}

structure Component (W S : Type) where
  get : W → S
  put : S → W → W
  get_put : ∀ s w, get (put s w) = s
  put_get : ∀ w, put (get w) w = w
  put_put : ∀ s s' w, put s' (put s w) = put s' w

/-- How the handlers over a part are handlers over the whole. -/
structure Embedding (S Q R T ε W Q' R' T' ε' : Type) where
  part : Component W S
  ask : Q → Q'
  hear : Q → R' → R
  lift : T → T'
  fail : ε → ε'

/-- A transaction of the part is one of the whole that leaves the rest alone. -/
def Embedding.Faithful (E : Embedding S Q R T ε W Q' R' T' ε') (apply : T → S → Except ε S)
    (apply' : T' → W → Except ε' W) : Prop :=
  ∀ t w, apply' (E.lift t) w =
    match apply t (E.part.get w) with
    | .ok s => .ok (E.part.put s w)
    | .error e => .error (E.fail e)

namespace Program

def embed (E : Embedding S Q R T ε W Q' R' T' ε') :
    Program S Q R T ε α → Program W Q' R' T' ε' α
  | ret a => ret a
  | raise e => raise (E.fail e)
  | read k => read (fun w => (k (E.part.get w)).embed E)
  | call q k => call (E.ask q) (fun r => (k (E.hear q r)).embed E)
  | commit t k => commit (E.lift t) (k.embed E)

theorem bind_assoc {γ : Type} (p : Program S Q R T ε α) (f : α → Program S Q R T ε β)
    (g : β → Program S Q R T ε γ) : (p.bind f).bind g = p.bind (fun a => (f a).bind g) := by
  induction p with
  | ret a => rfl
  | raise e => rfl
  | read k ih => exact congrArg read (funext ih)
  | call q k ih => exact congrArg (call q) (funext ih)
  | commit t k ih => exact congrArg (commit t) ih

theorem embed_bind (E : Embedding S Q R T ε W Q' R' T' ε') (p : Program S Q R T ε α)
    (f : α → Program S Q R T ε β) :
    (p.bind f).embed E = (p.embed E).bind (fun a => (f a).embed E) := by
  induction p with
  | ret a => rfl
  | raise e => rfl
  | read k ih => exact congrArg read (funext fun w => ih (E.part.get w))
  | call q k ih => exact congrArg (call (E.ask q)) (funext fun r => ih (E.hear q r))
  | commit t k ih => exact congrArg (commit (E.lift t)) ih

def Reads : Program S Q R T ε α → Prop
  | ret _ => True
  | raise _ => True
  | read k => ∀ s, (k s).Reads
  | call _ _ => False
  | commit _ _ => False

end Program

variable {E : Embedding S Q R T ε W Q' R' T' ε'} {apply : T → S → Except ε S}
  {apply' : T' → W → Except ε' W} {t : T} {w : W} {s : S}

theorem Embedding.Faithful.ok (h : E.Faithful apply apply') (ht : apply t (E.part.get w) = .ok s) :
    apply' (E.lift t) w = .ok (E.part.put s w) := by
  rw [h, ht]

theorem Embedding.Faithful.error (h : E.Faithful apply apply') {e : ε}
    (ht : apply t (E.part.get w) = .error e) : apply' (E.lift t) w = .error (E.fail e) := by
  rw [h, ht]

end SixGateway.Library
