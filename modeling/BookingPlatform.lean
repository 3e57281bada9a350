import BookingPlatform.Async.Runs
import BookingPlatform.Async.Frame
import BookingPlatform.Schema
import BookingPlatform.Async.Logic
import BookingPlatform.Data.Table
import BookingPlatform.Store
import BookingPlatform.Prisma
import BookingPlatform.Loyalty
import BookingPlatform.Availability
import BookingPlatform.Booking
import BookingPlatform.Auth
import BookingPlatform.Payment
import BookingPlatform.Api
import BookingPlatform.Frame
import BookingPlatform.Change
import BookingPlatform.Quiet
import BookingPlatform.Contract
import BookingPlatform.Shape.Booking
import BookingPlatform.Shape.Payment
import BookingPlatform.Shape.Requests
import BookingPlatform.Lanes
import BookingPlatform.DoubleBooking
import BookingPlatform.BookingTable
import BookingPlatform.Transitions
import BookingPlatform.Wallets
import BookingPlatform.Conservation
import BookingPlatform.Delivery
import BookingPlatform.Ledger
import BookingPlatform.Verification
import BookingPlatform.WalletRace
import BookingPlatform.Async.Eval
import BookingPlatform.Async.Sole
import BookingPlatform.Schedule
import BookingPlatform.Offer
import BookingPlatform.Callback
import BookingPlatform.CallbackRace
import BookingPlatform.Sole
import BookingPlatform.Holdings
import BookingPlatform.Customers
import BookingPlatform.Estate
import BookingPlatform.Tenants
import BookingPlatform.Async.Rely
import BookingPlatform.Links
import BookingPlatform.Async.Play
import BookingPlatform.Context
import BookingPlatform.Recurring
import BookingPlatform.Owners
import BookingPlatform.OnePlace
import BookingPlatform.AuthApi
import BookingPlatform.Deletion
import BookingPlatform.Async.Once
import BookingPlatform.Rotation
import BookingPlatform.Async.Phases
import BookingPlatform.Guesses
import BookingPlatform.Codes
import BookingPlatform.Recovery
import BookingPlatform.Retry
import BookingPlatform.Async.Until
import BookingPlatform.Enrollment
import BookingPlatform.GroupConfirmation
import BookingPlatform.Hours
import BookingPlatform.Moving
import BookingPlatform.Deals
import BookingPlatform.Redemption
import BookingPlatform.CouponLedger
import BookingPlatform.Pricing
import BookingPlatform.Answers
import BookingPlatform.Undoing
import BookingPlatform.Payouts
import BookingPlatform.Async.Lease
import BookingPlatform.Starts
