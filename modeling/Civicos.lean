import Civicos.Payments.Evidence
import Civicos.Payments.VoucherExpiry
import Civicos.Payments.BillPayments
import Civicos.Payments.WebhookOutcome
import Civicos.Payments.CommandDelivery
import Civicos.Appointments.ClosedSlots
import Civicos.Appointments.CancelledEvents
import Civicos.Appointments.Chains
import Civicos.Appointments.PendingTimeout
import Civicos.Appointments.ActiveLimit
import Civicos.Appointments.NoShowAccounting
import Civicos.Appointments.ExclusiveHold
import Civicos.Scheduler.DeliveryFencing
import Civicos.Scheduler.WakeUps
import Civicos.Scheduler.Admission
import Civicos.Scheduler.Cancellation
import Civicos.Scheduler.DeliveryRefinement
import Civicos.Volunteers.Rebooking
import Civicos.Volunteers.HoursLedger
import Civicos.Documents.LegalHold
import Civicos.Documents.Versions
import Civicos.Documents.RetentionFloor
import Civicos.Documents.Tokens
import Civicos.Documents.ScanSoundness
import Civicos.Volunteers.ApprovedSeats
import Civicos.Volunteers.Clearances
import Civicos.Volunteers.PhotoConsent
import Civicos.Volunteers.CraThresholds
import Civicos.Volunteers.Told
import Civicos.Consent.Grants
import Civicos.Consent.Configuration
import Civicos.Consent.Erasure
import Civicos.Consent.Decisions
import Civicos.Audit.ConcurrentChain
import Civicos.Reports.Revenue
import Civicos.Audit.Requests
import Civicos.Portal.StatusPath
import Civicos.Payments.RefundedGifts
import Civicos.Payments.RecurringLifecycle
import Civicos.Payments.DoubleSubmission
import Civicos.Payments.MapperOrder
import Civicos.Payments.CallbackRetries
import Civicos.Payments.ReceiptConstraints
import Civicos.Payments.BatchCallbacks
import Civicos.Scheduler.Publisher
import Civicos.Appointments.EventTerms
import Civicos.Reports.CsvExport
import Civicos.Consent.DataAgreements
import Civicos.Payments.RefundRecognition
import Civicos.Appointments.DoubleBooking
import Civicos.Reports.FiscalYears
import Civicos.Reports.VolunteerCategories
import Civicos.Appointments.LogTargets
import Civicos.Audit.ChainWindows
import Civicos.Documents.DisposalSchedule
import Civicos.Documents.ZipBomb
import Civicos.Workflows.SlaSweep
import Civicos.Core.Sentry
import Civicos.Core.EncryptedFields
import Civicos.Consent.ExportLifecycle
import Civicos.Payments.PrepaymentExecution
import Civicos.Payments.ProviderAdmission
import Civicos.Volunteers.Reminders
