import Mathlib.Data.Int.Basic

/-!
# Constants and machine words of the driver

The `#define`s of `kse_ubuntu.h` and `kse_ubuntu.c` that the modelled functions
use, and the conversions between bytes and 16-bit words.  A `uint16_t` is a
`Nat` that every assignment reduces, an `int16_t` is an `Int` obtained through
`int16`.
-/

namespace MavlinkDim

/-! ### USB communication -/

@[simp] def REPORT_SIZE : Nat := 64
def REP_ONE_BLOCK : UInt8 := 0xA5
def REP_FIRST_BLOCK : UInt8 := 0xA1
def REP_MIDDLE_BLOCK : UInt8 := 0x11
def REP_LAST_BLOCK : UInt8 := 0x15

def VENDOR_ID : Nat := 0x25F8
def PRODUCT_ID : Nat := 0x1010
def INTERFACE_NUMBER : Nat := 0
def LIBUSB_SUCCESS : Int := 0

@[simp] def MAX_IO_DATA_SIZE : Nat := 2944
@[simp] def MAX_IO_CTRL_LEN : Nat := 128
@[simp] def MAX_IO_BUFFER_SIZE : Nat := MAX_IO_DATA_SIZE + MAX_IO_CTRL_LEN

/-! ### Limits and selectors of the commands -/

@[simp] def MAX_KCMVP_KEY_COUNT : Nat := 8
@[simp] def MAX_CERT_KEY_COUNT : Nat := 96
@[simp] def MAX_INFO_FILE_SIZE : Nat := 8192

def KSE_TRUE : UInt8 := 1
def KSE_FALSE : UInt8 := 0

@[simp] def NULL_PTR : Nat := 0

def INVALID_SOCKET : Int := -1

def KCMVP_AES128_KEY : UInt8 := 0x40
def KCMVP_AES192_KEY : UInt8 := 0x41
def KCMVP_AES256_KEY : UInt8 := 0x42
def KCMVP_ARIA128_KEY : UInt8 := 0x50
def KCMVP_ARIA192_KEY : UInt8 := 0x51
def KCMVP_ARIA256_KEY : UInt8 := 0x52
def KCMVP_HMAC_KEY : UInt8 := 0x70
def KCMVP_ECDSA_KEYPAIR : UInt8 := 0x80
def KCMVP_ECDSA_PRI_KEY : UInt8 := 0x81
def KCMVP_ECDSA_PUB_KEY : UInt8 := 0x82
def KCMVP_ECDH_KEYPAIR : UInt8 := 0x90
def KCMVP_ECDH_PRI_KEY : UInt8 := 0x91
def KCMVP_ECDH_PUB_KEY : UInt8 := 0x92

def KCMVP_AES : UInt8 := 0x40
def KCMVP_ARIA : UInt8 := 0x50
def KCMVP_SHA : UInt8 := 0x60
def KCMVP_HMAC_GEN : UInt8 := 0x70
def KCMVP_HMAC_VERI : UInt8 := 0x78
def KCMVP_ECDSA_SIGN : UInt8 := 0x80
def KCMVP_ECDSA_VERI : UInt8 := 0x88

def ENCRYPT : UInt8 := 0
def DECRYPT : UInt8 := 1

def CERT_KEY_INT_DEV_ECDSA : UInt8 := 0x00
def CERT_KEY_INT_DEV_ECDH : UInt8 := 0x01
def CERT_KEY_INT_DEV_ECC : UInt8 := 0x02
def CERT_KEY_EXT_DEV_ECDSA : UInt8 := 0x04
def CERT_KEY_EXT_DEV_ECDH : UInt8 := 0x05
def CERT_KEY_EXT_DEV_ECC : UInt8 := 0x06
def CERT_KEY_EXT_CA_ECDSA : UInt8 := 0x07
def CERT_BC : UInt8 := 0x0A

def SELECT_CERT : UInt8 := 0x01
def SELECT_PUB_KEY : UInt8 := 0x02
def SELECT_PRI_KEY : UInt8 := 0x04
def SELECT_ALL : UInt8 := 0x07

def KSETLS_MODE_TLS : UInt8 := 0
def KSETLS_MODE_DTLS : UInt8 := 1
def KSETLS_CLIENT : UInt8 := 0
def KSETLS_SERVER : UInt8 := 1
def KSETLS_FULL_HANDSHAKE : UInt8 := 0
def KSETLS_ABBR_HANDSHAKE : UInt8 := 1
def NONE : UInt8 := 0x00
def SESSION : UInt8 := 0x08

/-! ### Return codes -/

@[simp] def KSE_SUCCESS : Int := 0
@[simp] def KSE_FAIL_WRONG_INPUT : Int := -0x0200
@[simp] def KSE_FAIL_NOT_POWERED_ON : Int := -0x0202
@[simp] def KSE_FAIL_ALREADY_POWERED_ON : Int := -0x0203
@[simp] def KSE_FAIL_USB_INIT : Int := -0x0300
@[simp] def KSE_FAIL_USB_NO_DEVICES : Int := -0x0301
@[simp] def KSE_FAIL_USB_DEVICE_OPEN : Int := -0x0302
@[simp] def KSE_FAIL_USB_DETACH_KERNEL_DRIVER : Int := -0x0303
@[simp] def KSE_FAIL_USB_CLAIM_INTERFACE : Int := -0x0304
@[simp] def KSE_FAIL_USB_SEND_REPORT : Int := -0x0305
@[simp] def KSE_FAIL_USB_RECV_REPORT : Int := -0x0306
@[simp] def KSE_FAIL_NOT_FOUND : Int := -0x0307
@[simp] def KSE_FAIL_UNEXPECTED_RESP : Int := -0x0308
@[simp] def KSE_FAIL_UNEXPECTED_RESP_LEN : Int := -0x0309
@[simp] def KSE_FAIL_RECV_BUF_OVERFLOW : Int := -0x030A
@[simp] def KSETLS_HANDSHAKE_DONE : Int := 0x0001

/-! ### Words -/

/-- `((uint16_t)hi << 8) | (uint16_t)lo` -/
def word (hi lo : UInt8) : Nat := hi.toNat * 256 + lo.toNat

/-- `(int16_t)n` -/
def int16 (n : Int) : Int :=
  if n % 65536 < 32768 then n % 65536 else n % 65536 - 65536

/-- `(uint16_t)n` -/
def uint16 (n : Int) : Nat := (n % 65536).toNat

/-- `(size_t)n` -/
def sizeT (n : Int) : Nat := (n % 18446744073709551616).toNat

/-- `(uint8_t)(n >> 8)` -/
def hiByte (n : Nat) : UInt8 := UInt8.ofNat (n / 256)

def loByte (n : Nat) : UInt8 := UInt8.ofNat n

/-- `(uint8_t)(n >> 8), (uint8_t)(n)` -/
def bytes16 (n : Nat) : List UInt8 := [hiByte n, loByte n]

/-- `(uint8_t)((int32_t)socketDesc >> k)` for `k = 24, 16, 8, 0` -/
def socketBytes (socketDesc : Int) : List UInt8 :=
  [16777216, 65536, 256, 1].map fun b : Int => UInt8.ofNat (socketDesc / b % 256).toNat

@[simp] theorem length_bytes16 (n : Nat) : (bytes16 n).length = 2 := rfl

theorem word_lt (hi lo : UInt8) : word hi lo < 65536 := by
  have hhi := hi.toNat_lt
  have hlo := lo.toNat_lt
  simp only [word]
  omega

/-- The two bytes of a 16-bit length field give the length back. -/
theorem word_hiByte_loByte {n : Nat} (h : n < 65536) : word (hiByte n) (loByte n) = n := by
  simp only [word, hiByte, loByte, UInt8.toNat_ofNat']
  omega

theorem int16_of_mem {n : Int} (h0 : -32768 ≤ n) (h : n < 32768) : int16 n = n := by
  simp only [int16]
  split <;> omega

theorem int16_of_lt {n : Int} (h0 : 0 ≤ n) (h : n < 32768) : int16 n = n :=
  int16_of_mem (by omega) h

theorem int16_zero : int16 0 = 0 := rfl

theorem int16_of_pos {n : Nat} (h : n < 65536) (hpos : 0 < int16 n) : int16 n = n := by
  simp only [int16] at hpos ⊢
  split <;> split at hpos <;> omega

theorem uint16_of_lt {n : Nat} (h : n < 65536) : uint16 n = n := by
  simp only [uint16]
  omega

theorem sizeT_of_nonneg {n : Int} (h0 : 0 ≤ n) (h : n < 18446744073709551616) :
    sizeT n = n.toNat := by
  simp only [sizeT]
  rw [Int.emod_eq_of_lt h0 h]

end MavlinkDim
