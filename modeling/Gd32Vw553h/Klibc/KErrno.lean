/-
  Klibc/KErrno.lean --- the error codes of `rt-thread/include/klibc/kerrno.h`.

  Source configuration: the board is built with newlib, so `RT_USING_LIBC` is set,
  `RT_USING_NANO` is not, and the codes are those of newlib's `errno.h`.
-/
set_option autoImplicit false

namespace Gd32Vw553h.Klibc

/-- `RT_ERROR` -/
abbrev rtError : Int := 255
/-- `RT_EBUSY`, `EBUSY` -/
abbrev rtEBusy : Int := 16
/-- `RT_EINTR`, `EINTR` -/
abbrev rtEIntr : Int := 4
/-- `RT_EIO`, `EIO` -/
abbrev rtEIo : Int := 5
/-- `RT_ENOMEM`, `ENOMEM` -/
abbrev rtENoMem : Int := 12
/-- `RT_EINVAL`, `EINVAL` -/
abbrev rtEInval : Int := 22
/-- `RT_EFULL`, `ENOSPC` -/
abbrev rtEFull : Int := 28
/-- `RT_EEMPTY`, `ENODATA` -/
abbrev rtEEmpty : Int := 61
/-- `RT_ETIMEOUT`, `ETIMEDOUT` -/
abbrev rtETimeout : Int := 116
/-- `RT_ENOSYS` -/
abbrev rtENosys : Int := 88

end Gd32Vw553h.Klibc
