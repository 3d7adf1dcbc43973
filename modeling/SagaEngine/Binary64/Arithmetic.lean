import SagaEngine.Binary64

/-! Product, quotient and remainder of double-precision numbers, each computed exactly on the
values `m * 2 ^ q` and rounded once. The remainder is exact and takes the sign of the dividend. -/

namespace SagaEngine.Binary64

def mul (x y : Binary64) : Binary64 :=
  match x.view, y.view with
  | .nan, _ | _, .nan => nan
  | .infinite s, .infinite t => infinity (s != t)
  | .infinite s, .finite t m _ | .finite s m _, .infinite t =>
    if m = 0 then nan else infinity (s != t)
  | .finite s m p, .finite t n q => ofScaled (s != t) (m * n) (p + q)

def div (x y : Binary64) : Binary64 :=
  match x.view, y.view with
  | .nan, _ | _, .nan | .infinite _, .infinite _ => nan
  | .infinite s, .finite t _ _ => infinity (s != t)
  | .finite s _ _, .infinite t => zero (s != t)
  | .finite s m p, .finite t n q =>
    if n = 0 then if m = 0 then nan else infinity (s != t)
    else if 0 ≤ p - q then ofRatio (s != t) (m * power 2 (p - q)) n
    else ofRatio (s != t) m (n * power 2 (q - p))

def rem (x y : Binary64) : Binary64 :=
  match x.view, y.view with
  | .nan, _ | _, .nan | .infinite _, _ => nan
  | .finite _ _ _, .infinite _ => x
  | .finite s m p, .finite _ n q =>
    if n = 0 then nan
    else
      let u := min p q
      ofScaled s ((m * power 2 (p - u)) % (n * power 2 (q - u))) u

end SagaEngine.Binary64
