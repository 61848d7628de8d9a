import VeSmart.Metrics.Encode
import VeSmart.Service.Ports

set_option autoImplicit false

/-! # The batch renderer (`PrometheusRenderer` of `victron-collector/src/adapters/delivery.rs`) -/

namespace VeSmart.Collector

open VeSmart.Lib VeSmart.Metrics
open VeSmart.Service (RenderContext RenderError)

/-- The renderer. `sampleToBatch` makes the points of a context or says why it cannot; nothing is
assumed about which points it makes. -/
structure PrometheusRenderer where
  sampleToBatch : RenderContext → Except RenderError (List MetricPoint)
  formatValue : F64 → String

/-- The bytes of a text (`String::into_bytes`). -/
def intoBytes (s : String) : List UInt8 := s.toByteArray.data.toList

def PrometheusRenderer.render (r : PrometheusRenderer) (ctx : RenderContext) :
    Except RenderError (List UInt8) := do
  let batch ← r.sampleToBatch ctx
  if batch.isEmpty then throw (.metric "sample rendered no metrics")
  else pure (intoBytes (encode r.formatValue batch))

theorem intoBytes_ne {s : String} (h : s ≠ "") : intoBytes s ≠ [] := by
  intro hnil
  apply h
  have hsize : s.toByteArray.data.toList.length = 0 := by
    rw [show s.toByteArray.data.toList = [] from hnil]
    rfl
  apply String.toByteArray_inj.mp
  apply ByteArray.ext
  apply Array.eq_empty_of_size_eq_zero
  simpa using hsize

/-- A payload that is rendered is not empty. -/
theorem PrometheusRenderer.render_ne {r : PrometheusRenderer} {ctx : RenderContext}
    {payload : List UInt8} (h : r.render ctx = .ok payload) : payload ≠ [] := by
  unfold render at h
  cases hbatch : r.sampleToBatch ctx with
  | error e => rw [hbatch] at h; cases h
  | ok batch =>
      rw [hbatch] at h
      by_cases hempty : batch = []
      · rw [hempty] at h
        cases h
      · have hpayload : Except.ok (ε := RenderError)
            (intoBytes (encode r.formatValue batch)) = .ok payload := by
          rw [← h]
          simp [bind, Except.bind, pure, Except.pure, hempty]
        rw [← Except.ok.inj hpayload]
        exact intoBytes_ne (encode_ne hempty)

end VeSmart.Collector
