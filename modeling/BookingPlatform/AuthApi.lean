import BookingPlatform.Shape.Requests

/-! The routes of `AuthController`, and the strategy that stands before all guarded routes. -/
namespace BookingPlatform
open Async Prog

/-- What the caller is answered. -/
inductive Reply
  | done
  | user (user : AuthenticatedUser)
  | otp (response : OtpResponse)
  | tokens (pair : TokenPair)
  deriving DecidableEq

/-- The answer lets its caller act as this user. -/
def Reply.grants (userId : Id) : Reply → Prop
  | user u => u.id = userId
  | tokens pair => pair.accessToken.sub = userId
  | done | otp _ => False

/-- A call of an authentication route, or any other request. -/
inductive Call
  | validate (sub : Id)
  | requestRegisterOtp (phone : String)
  | verifyRegister (dto : VerifyRegisterDto)
  | login (dto : LoginDto)
  | requestLoginOtp (phone : String)
  | verifyLoginOtp (dto : VerifyLoginOtpDto)
  | refresh (rawToken : Option String)
  | logout (rawToken : Option String)
  | forgotPassword (phone : String)
  | resetPassword (dto : ResetPasswordDto)
  | me (user : Id)
  | request (r : Request)

/-- A token that is absent or the empty text is falsy. -/
def truthyToken (rawToken : Option String) : Option String := rawToken.filter fun t => t ≠ ""

def Call.serve (config : ConfigService) : Call → Task Reply
  | validate sub => do return .user (← JwtStrategy.validate sub)
  | requestRegisterOtp phone => do return .otp (← AuthService.requestRegisterOtp config phone)
  | verifyRegister dto => do return .tokens (← AuthService.verifyRegisterAndCreateUser dto)
  | login dto => do return .tokens (← AuthService.loginWithPassword dto)
  | requestLoginOtp phone => do return .otp (← AuthService.requestLoginOtp config phone)
  | verifyLoginOtp dto => do return .tokens (← AuthService.verifyLoginOtp dto)
  | refresh rawToken =>
    match truthyToken rawToken with
    | none => return .done
    | some rawToken => do return .tokens (← AuthService.refreshTokens rawToken)
  | logout rawToken =>
    match truthyToken rawToken with
    | none => return .done
    | some rawToken => do
      AuthService.logout rawToken
      return .done
  | forgotPassword phone => do return .otp (← AuthService.forgotPassword config phone)
  | resetPassword dto => do
    AuthService.resetPassword dto
    return .done
  | me user => do
    authenticated user fun u => AuthService.getMe u.id
    return .done
  | request r => do
    r.serve
    return .done

/-- The phone with which the caller wants to log in. -/
def Call.loginPhone : Call → Option String
  | login dto => some dto.phone
  | verifyLoginOtp dto => some dto.phone
  | _ => none

/-- Whose access token the caller shows. -/
def Call.subject : Call → Option Id
  | validate sub => some sub
  | me user => some user
  | request r => r.user
  | _ => none

end BookingPlatform
