/-
**Floats in a statement.**

A float gets into a statement directly or by way of JSON.  Directly it is written as the shortest
decimal that reads back as it, a single as the shortest one that reads back as the single, and a
float that is not finite is an error.  By way of JSON a single is first widened, so that it is
written as the double of its value, and what is not finite becomes null.

Main definitions:

* `Update.RoutesAgree` — both ways give the same text or the same error.

Main results:

* `Update.build_set_of_not_finite` — a float that is not finite is never written;
* `Update.floats_by_either_route` — **what each way gives, and when they agree**;
* `Update.routes_disagree` — they do not on a NaN, and on a tenth as a single.
-/

import Mathlib
import UpdateSql.Proofs.Number.Singles
import UpdateSql.Proofs.Update.Calls
import UpdateSql.Proofs.Update.LastAssigned

set_option relaxedAutoImplicit false
set_option autoImplicit false

namespace UpdateSql

/-! ### Floats as values -/

namespace Value

theorem faults_float {x : Float} (hx : x.isFinite = true) : (float x).faults = [] := by
  rw [faults, if_pos hx]

theorem faults_float_of_not_finite {x : Float} (hx : x.isFinite = false) :
    (float x).faults = [.nonFiniteFloat x] := by
  rw [faults, hx, if_neg Bool.false_ne_true]

theorem literal_float {x : Float} (hx : x.isFinite = true) (mode : QuoteMode) :
    (float x).literal mode = .ok (String.ofList (FloatText.chars x)) := by
  rw [literal, literalChars, if_pos hx]
  rfl

theorem ofJson_ofFloat (x : Float) :
    ofJson (.ofFloat x) = if x.isFinite then .float x else .null := by
  rw [Json.ofFloat]
  split
  · exact ofJsonNumber_float x _
  · rfl

end Value

namespace Update

variable {stage : Stage}

/-! ### Both routes -/

/-- Whenever something is assigned by way of JSON, building gives the same text or the same error as
if it is assigned directly. -/
def RoutesAgree {α : Type} [ToValue α] [ToJson α] (q : Update stage) (field : String) (a : α)
    (config : RenderConfig) : Prop :=
  ∀ next, q.setJson field a = .ok next → next.build config = (q.set field a).build config

theorem setJson_float (q : Update stage) (field : String) (x : Float) :
    q.setJson field x = .ok (q.set field (if x.isFinite then Value.float x else .null)) := by
  rw [← Value.ofJson_ofFloat]
  rfl

theorem setJson_single (q : Update stage) (field : String) (x : Float32) : q.setJson field x
    = .ok (q.set field (if x.isFinite then Value.float (FloatText.widen x) else .null)) := by
  rw [← FloatText.isFinite_widen, ← Value.ofJson_ofFloat]
  rfl

/-- The error for a non-finite float is the first after others that decide. -/
theorem build_set_of_not_finite {x : Float} (hx : x.isFinite = false) (q : Update stage)
    (field : String) (config : RenderConfig) : (q.set field (Value.float x)).build config
      = .error ((q.faultsBefore field).headD (.nonFiniteFloat x)) := by
  refine ((q.set field (Value.float x)).reports_build config _).2 ?_
  rw [faults_set, Value.faults_float_of_not_finite hx]
  cases q.faultsBefore field <;> rfl

/-- Null in place of a float that is not finite is noticed, unless another fault decides. -/
theorem build_set_null_eq_iff {x : Float} (hx : x.isFinite = false) (q : Update stage)
    (field : String) (config : RenderConfig) :
    (q.set field Value.null).build config = (q.set field (Value.float x)).build config ↔
      q.faultsBefore field ≠ [] ∨ q.faultsAfter.head? = some (.nonFiniteFloat x) := by
  have hnull : Value.null.faults = [] := rfl
  rw [build_set_eq_iff, Value.faults_float_of_not_finite hx, hnull]
  cases q.faultsAfter <;> simp

theorem build_set_float_eq_iff {x y : Float} (hx : x.isFinite = true) (hy : y.isFinite = true)
    (q : Update stage) (field : String) (config : RenderConfig) :
    (q.set field (Value.float x)).build config = (q.set field (Value.float y)).build config ↔
      q.faultsBefore field ≠ [] ∨ q.faultsAfter ≠ [] ∨ FloatText.chars x = FloatText.chars y := by
  rw [build_set_eq_iff, Value.faults_float hx, Value.faults_float hy, Value.literal_float hx,
    Value.literal_float hy]
  cases q.faultsAfter <;> simp [String.ofList_inj]

theorem routesAgree_iff {α : Type} [ToValue α] [ToJson α] {q : Update stage} {field : String}
    {a : α} {v : Value} (h : q.setJson field a = .ok (q.set field v)) (config : RenderConfig) :
    RoutesAgree q field a config ↔
      (q.set field v).build config = (q.set field a).build config := by
  rw [RoutesAgree, h]
  constructor
  · intro hagree
    exact hagree _ rfl
  · rintro heq _ ⟨⟩
    exact heq

/-- **Floats by either route.**  Assigned directly, a float that is not finite is always an error,
and a single has its own text, the shortest that is nearest to it.  By way of JSON a finite float is
the double of the same value and anything else is null.  So the routes agree on every finite double;
on a single they agree exactly if its text is also that of the double of its value; on what is not
finite they never agree, unless other faults decide. -/
theorem floats_by_either_route (q : Update stage) (field : String) (config : RenderConfig) :
    (∀ x : Float, x.isFinite = true → RoutesAgree q field x config) ∧
    (∀ x : Float, x.isFinite = false →
      q.setJson field x = .ok (q.set field Value.null) ∧
      (q.set field x).build config = .error ((q.faultsBefore field).headD (.nonFiniteFloat x)) ∧
      (RoutesAgree q field x config ↔
        q.faultsBefore field ≠ [] ∨ q.faultsAfter.head? = some (.nonFiniteFloat x))) ∧
    (∀ x : Float32, x.isFinite = true →
      q.setJson field x = .ok (q.set field (FloatText.widen x)) ∧
      (toValue x).literal config.quoteMode = .ok (String.ofList (FloatText.singleChars x)) ∧
      (RoutesAgree q field x config ↔ q.faultsBefore field ≠ [] ∨ q.faultsAfter ≠ [] ∨
        FloatText.chars (FloatText.widen x) = FloatText.singleChars x)) ∧
    (∀ x : Float32, x.isFinite = false →
      q.setJson field x = .ok (q.set field Value.null) ∧
      (q.set field x).build config
        = .error ((q.faultsBefore field).headD (.nonFiniteFloat (FloatText.ofSingle x))) ∧
      (RoutesAgree q field x config ↔ q.faultsBefore field ≠ [] ∨
        q.faultsAfter.head? = some (.nonFiniteFloat (FloatText.ofSingle x)))) ∧
    (∀ x : Float32, FloatText.numberOf (FloatText.widen x).toModel.unpack
      = FloatText.numberOf x.toModel.unpack) ∧
    (∀ (x : Float32) (s : Float.Model.UnpackedFloat.Sign) (m : Nat) (e : Int) (h : 0 < m),
      x.toModel.unpack = .finite s m e h → ∃ d : Decimal,
        FloatText.singleChars x = FloatText.signChars s ++ d.positional ∧
          Nearest .binary32 m e d.value ∧
          ∀ (c : Nat) (j : Int), d.exponent < j → ¬ Nearest .binary32 m e (c * 10 ^ j)) := by
  refine ⟨fun x hx => ?_, fun x hx => ?_, fun x hx => ?_, fun x hx => ?_, FloatText.numberOf_widen,
    fun x s m e h hx => ?_⟩
  · have hjson := setJson_float q field x
    rw [hx, if_pos rfl] at hjson
    exact (routesAgree_iff hjson config).2 rfl
  · have hjson := setJson_float q field x
    rw [hx, if_neg Bool.false_ne_true] at hjson
    exact ⟨hjson, build_set_of_not_finite hx q field config,
      (routesAgree_iff hjson config).trans (build_set_null_eq_iff hx q field config)⟩
  · have hjson := setJson_single q field x
    rw [hx, if_pos rfl] at hjson
    have hsingle : (FloatText.ofSingle x).isFinite = true := FloatText.isFinite_ofSingle x ▸ hx
    have hwide : (FloatText.widen x).isFinite = true := FloatText.isFinite_widen x ▸ hx
    refine ⟨hjson, ?_, (routesAgree_iff hjson config).trans ?_⟩
    · change (Value.float (FloatText.ofSingle x)).literal config.quoteMode = _
      rw [Value.literal_float hsingle, FloatText.chars_ofSingle]
    · change _ = (q.set field (Value.float (FloatText.ofSingle x))).build config ↔ _
      rw [build_set_float_eq_iff hwide hsingle, FloatText.chars_ofSingle]
  · have hjson := setJson_single q field x
    rw [hx, if_neg Bool.false_ne_true] at hjson
    have hsingle : (FloatText.ofSingle x).isFinite = false := FloatText.isFinite_ofSingle x ▸ hx
    exact ⟨hjson, build_set_of_not_finite hsingle q field config,
      (routesAgree_iff hjson config).trans (build_set_null_eq_iff hsingle q field config)⟩
  · refine ⟨Decimal.shortest .binary32 m e, ?_, Decimal.nearest_shortest h, fun c j hj =>
      Decimal.not_nearest_of_shortest_lt h c hj⟩
    rw [FloatText.singleChars, hx]

/-- A finite double and a NaN, and a tenth and an infinity as singles, on a class. -/
theorem floats_on_class :
    RoutesAgree (Update.empty.onClass "T") "f" (1 / 2 : Float) .default ∧
      ((Update.empty.onClass "T").set "f" (0 / 0 : Float)).build
        = .error (.nonFiniteFloat (0 / 0)) ∧
      ¬ RoutesAgree (Update.empty.onClass "T") "f" (0 / 0 : Float) .default ∧
      ¬ RoutesAgree (Update.empty.onClass "T") "f" (Float32.ofBits 0x3dcccccd) .default ∧
      ¬ RoutesAgree (Update.empty.onClass "T") "f" (Float32.ofBits 0x7f800000) .default ∧
      ∃ d : Decimal, FloatText.singleChars (Float32.ofBits 0x3dcccccd) = d.positional ∧
        Nearest .binary32 13421773 (-27) d.value := by
  obtain ⟨hdouble, hnan, hsingle, hinfinity, -, hshortest⟩ :=
    floats_by_either_route (Update.empty.onClass "T") "f" .default
  obtain ⟨-, hbuild, hagree⟩ := hnan (0 / 0) (by rfl)
  obtain ⟨-, -, hagree_single⟩ := hsingle (Float32.ofBits 0x3dcccccd) (by rfl)
  obtain ⟨-, -, hagree_infinity⟩ := hinfinity (Float32.ofBits 0x7f800000) (by rfl)
  obtain ⟨d, hd, hnearest, -⟩ :=
    hshortest (Float32.ofBits 0x3dcccccd) .positive 13421773 (-27) (by decide) (by rfl)
  have hbefore : (Update.empty.onClass "T").faultsBefore "f" = [] := by rfl
  have hafter : (Update.empty.onClass "T").faultsAfter = [] := by rfl
  have htext : FloatText.chars (FloatText.widen (Float32.ofBits 0x3dcccccd))
      ≠ FloatText.singleChars (Float32.ofBits 0x3dcccccd) := by decide +kernel
  rw [hbefore] at hbuild
  rw [hagree, hagree_single, hagree_infinity, hbefore, hafter]
  exact ⟨hdouble (1 / 2) (by rfl), hbuild, by simp, by simpa using htext, by simp,
    d, hd, hnearest⟩

/-- A NaN, and a tenth as a single, assigned to a field of a class. -/
theorem routes_disagree :
    ((Update.empty.onClass "T").setJson "f" (0 / 0 : Float)
          = .ok ((Update.empty.onClass "T").set "f" Value.null) ∧
        ((Update.empty.onClass "T").set "f" Value.null).build = .ok "UPDATE T SET f = NULL" ∧
        ((Update.empty.onClass "T").set "f" (0 / 0 : Float)).build
          = .error (.unsupportedValueKind "non-finite float NaN has no literal form")) ∧
      ((Update.empty.onClass "T").setJson "f" (Float32.ofBits 0x3dcccccd)
          = .ok ((Update.empty.onClass "T").set "f"
            (FloatText.widen (Float32.ofBits 0x3dcccccd))) ∧
        ((Update.empty.onClass "T").set "f" (FloatText.widen (Float32.ofBits 0x3dcccccd))).build
          = .ok "UPDATE T SET f = 0.10000000149011612" ∧
        ((Update.empty.onClass "T").set "f" (Float32.ofBits 0x3dcccccd)).build
          = .ok "UPDATE T SET f = 0.1") ∧
      (¬ ∀ (stage : Stage) (calls : List Call) (q : Update stage), q.Reached calls →
        ∀ (field : String) (config : RenderConfig) (x : Float), RoutesAgree q field x config) ∧
      ¬ ∀ (stage : Stage) (calls : List Call) (q : Update stage), q.Reached calls →
        ∀ (field : String) (config : RenderConfig) (x : Float32), RoutesAgree q field x config := by
  have hreached : Reached [.onClass "T"] (Update.empty.onClass "T") := Reached.empty.onClass "T"
  have hnan := setJson_float (Update.empty.onClass "T") "f" (0 / 0)
  have hsingle := setJson_single (Update.empty.onClass "T") "f" (Float32.ofBits 0x3dcccccd)
  rw [if_neg (by decide +kernel)] at hnan
  rw [if_pos (by decide +kernel)] at hsingle
  have hnull : ((Update.empty.onClass "T").set "f" Value.null).build
      = .ok "UPDATE T SET f = NULL" := by decide +kernel
  have herror : ((Update.empty.onClass "T").set "f" (0 / 0 : Float)).build
      = .error (.unsupportedValueKind "non-finite float NaN has no literal form") := by
    decide +kernel
  have hwide : ((Update.empty.onClass "T").set "f"
      (FloatText.widen (Float32.ofBits 0x3dcccccd))).build
        = .ok "UPDATE T SET f = 0.10000000149011612" := by decide +kernel
  have hown : ((Update.empty.onClass "T").set "f" (Float32.ofBits 0x3dcccccd)).build
      = .ok "UPDATE T SET f = 0.1" := by decide +kernel
  refine ⟨⟨hnan, hnull, herror⟩, ⟨hsingle, hwide, hown⟩, fun hagree => ?_, fun hagree => ?_⟩
  · have h := hagree _ _ _ hreached "f" .default (0 / 0) _ hnan
    rw [hnull, herror] at h
    cases h
  · have h := hagree _ _ _ hreached "f" .default (Float32.ofBits 0x3dcccccd) _ hsingle
    have htexts := (hwide.symm.trans h).trans hown
    exact absurd htexts (by decide)

end Update

end UpdateSql
