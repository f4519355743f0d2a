/-
  Iosu.Ios.Api — the kernel's error codes and commands (`ios_api/ios.h`,
  `ios_api/ipc.h`), as the 32-bit words they are.
-/

import Iosu.Lib.Bytes

namespace Iosu.Ios

open Iosu.Lib

/-! ## `IOSError` -/

abbrev IosError := U32

def IOS_ERROR_OK : IosError := 0x00000000
def IOS_ERROR_EXISTS : IosError := 0xFFFFFFFE
def IOS_ERROR_INVALID : IosError := 0xFFFFFFFC
def IOS_ERROR_MAX : IosError := 0xFFFFFFFB
def IOS_ERROR_NOEXISTS : IosError := 0xFFFFFFFA
def IOS_ERROR_NOTREADY : IosError := 0xFFFFFFF6
def IOS_ERROR_FAIL_INTERNAL : IosError := 0xFFFFFFEB

/-! ## `IOSMessageCommand` -/

def IOS_OPEN : U32 := 1
def IOS_CLOSE : U32 := 2
def IOS_IOCTL : U32 := 6

end Iosu.Ios
